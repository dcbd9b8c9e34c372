import TemplateCatalog.Proofs.Migration.RiskValueReport
import TemplateCatalog.Proofs.Migration.Schema

/-!
# Damage and consent

What breaks in a migration is of two sorts. An entry that names an element is
damage: the data of the element would be lost. Any other entry names a change
that nobody accepted. The two are found in one pass, in which the damage that a
change does takes the place of the entry about the change itself.

Results:
1. `Migration.filter_breaking`: the entries that name an element are the
   `damage`, which does not depend on what is accepted.
2. `Migration.breaking_eq_nil_iff`: nothing breaks exactly if there is no damage
   and every change is accepted.
3. `Migration.breaking_sublist`: accepting more takes entries out.
4. `Migration.damage_sublist`: more elements add damage and take none out.
-/

namespace TemplateCatalog

/-- Whether the entry is about the data of an element. -/
def BreakingChange.namesElement (b : BreakingChange) : Bool := b.element?.isSome

/-! ## One change -/

namespace Change

/-- What a change contributes: the risk values that it hits, else itself unless it is accepted. -/
def breaks (c : Change) (riskDefinition : String) (old : RiskDefinition) (elements : List Element)
    (accepted : EnumSet ChangeKind) : List BreakingChange :=
  let hits := c.valuesInUse old elements
  if !hits.isEmpty then hits
  else if accepted.contains c.kind then []
  else [.unaccepted riskDefinition c]

variable {c : Change} {riskDefinition : String} {old : RiskDefinition}
  {elements elements' : List Element} {accepted : EnumSet ChangeKind}

theorem breaks_of_hits (hits : c.valuesInUse old elements ≠ []) :
    c.breaks riskDefinition old elements accepted = c.valuesInUse old elements :=
  if_pos (by simpa using hits)

theorem breaks_of_no_hits (noHits : c.valuesInUse old elements = []) :
    c.breaks riskDefinition old elements accepted =
      if c.kind ∈ accepted then [] else [.unaccepted riskDefinition c] := by
  unfold breaks
  rw [noHits]
  rfl

theorem namesElement_of_valuesInUse {b : BreakingChange} (h : b ∈ c.valuesInUse old elements) :
    b.namesElement = true := by
  obtain ⟨e, -, v, -, -, -, rfl⟩ := mem_valuesInUse.mp h
  rfl

theorem filter_breaks :
    (c.breaks riskDefinition old elements accepted).filter BreakingChange.namesElement =
      c.valuesInUse old elements := by
  by_cases hits : c.valuesInUse old elements = []
  · rw [breaks_of_no_hits hits, hits]
    split
    · rfl
    · rfl
  · rw [breaks_of_hits hits]
    exact List.filter_eq_self.mpr fun b hb => namesElement_of_valuesInUse hb

theorem breaks_eq_nil_iff :
    c.breaks riskDefinition old elements accepted = [] ↔
      c.valuesInUse old elements = [] ∧ c.kind ∈ accepted := by
  by_cases hits : c.valuesInUse old elements = []
  · rw [breaks_of_no_hits hits]
    simp [hits]
  · rw [breaks_of_hits hits]
    simp [hits]

theorem breaks_sublist {accepted' : EnumSet ChangeKind} (more : ∀ k ∈ accepted, k ∈ accepted') :
    (c.breaks riskDefinition old elements accepted').Sublist
      (c.breaks riskDefinition old elements accepted) := by
  by_cases hits : c.valuesInUse old elements = []
  · rw [breaks_of_no_hits hits, breaks_of_no_hits hits]
    by_cases agreed : c.kind ∈ accepted
    · rw [if_pos agreed, if_pos (more _ agreed)]
    · rw [if_neg agreed]
      split
      · exact List.nil_sublist _
      · exact List.Sublist.refl _
  · rw [breaks_of_hits hits, breaks_of_hits hits]

theorem valuesInUse_sublist (h : elements.Sublist elements') :
    (c.valuesInUse old elements).Sublist (c.valuesInUse old elements') :=
  h.flatMap _

end Change

/-! ## One risk definition -/

namespace ChangeSet

/-- The risk values that the changes hit. -/
def valuesInUse (s : ChangeSet) (old : RiskDefinition) (elements : List Element) :
    List BreakingChange :=
  s.toList.flatMap fun c => c.valuesInUse old elements

variable {s : ChangeSet} {old : RiskDefinition} {elements elements' : List Element}
  {accepted : EnumSet ChangeKind}

theorem breaks_eq : s.breaks old elements accepted =
    s.toList.flatMap fun c => c.breaks s.riskDefinition old elements accepted := rfl

/-- The changes of a new definition are judged like changes that no element is affected by. -/
theorem unaccepted_eq_breaks (old : RiskDefinition) :
    s.unaccepted accepted = s.breaks old [] accepted := by
  unfold unaccepted
  rw [breaks_eq]
  induction s.toList with
  | nil => rfl
  | cons c rest ih =>
    rw [List.flatMap_cons, Change.breaks_of_no_hits rfl, ← ih]
    by_cases agreed : accepted.contains c.kind
    · simp [agreed]
    · simp [agreed]

theorem filter_breaks :
    (s.breaks old elements accepted).filter BreakingChange.namesElement =
      s.valuesInUse old elements := by
  rw [breaks_eq, List.filter_flatMap]
  exact congrArg (List.flatMap · s.toList) (funext fun _ => Change.filter_breaks)

theorem breaks_eq_nil_iff :
    s.breaks old elements accepted = [] ↔
      s.valuesInUse old elements = [] ∧ ∀ c ∈ s.toList, c.kind ∈ accepted := by
  rw [breaks_eq, valuesInUse, List.flatMap_eq_nil_iff, List.flatMap_eq_nil_iff]
  simp only [Change.breaks_eq_nil_iff, forall_and]

theorem breaks_sublist {accepted' : EnumSet ChangeKind} (more : ∀ k ∈ accepted, k ∈ accepted') :
    (s.breaks old elements accepted').Sublist (s.breaks old elements accepted) :=
  List.Sublist.flatMap_right _ fun _ _ => Change.breaks_sublist more

theorem valuesInUse_sublist (h : elements.Sublist elements') :
    (s.valuesInUse old elements).Sublist (s.valuesInUse old elements') :=
  List.Sublist.flatMap_right _ fun _ _ => Change.valuesInUse_sublist h

end ChangeSet

/-! ## Risk definitions that are gone -/

theorem mem_removedRiskDefinitions {domain : Domain} {template : DomainTemplate}
    {elements : List Element} {b : BreakingChange} :
    b ∈ removedRiskDefinitions domain template elements ↔
      ∃ r ∈ domain.riskDefinitions, template.riskDefinition? r.id = none ∧
        ∃ e ∈ elements, (∃ v ∈ e.riskValues, v.riskDefinition = r.id) ∧
          b = .riskDefinitionRemoved r.id e.id := by
  simp only [removedRiskDefinitions, List.mem_flatMap, List.mem_filter, Option.isNone_iff_eq_none,
    List.mem_map, mem_sortIds, Element.usesRiskDefinition, List.any_eq_true, beq_iff_eq]
  constructor
  · rintro ⟨r, ⟨hr, gone⟩, _, ⟨e, ⟨he, uses⟩, rfl⟩, rfl⟩
    exact ⟨r, hr, gone, e, he, uses, rfl⟩
  · rintro ⟨r, hr, gone, e, he, uses, rfl⟩
    exact ⟨r, ⟨hr, gone⟩, _, ⟨e, ⟨he, uses⟩, rfl⟩, rfl⟩

theorem removedRiskDefinitions_eq_nil_iff {domain : Domain} {template : DomainTemplate}
    {elements : List Element} :
    removedRiskDefinitions domain template elements = [] ↔
      ∀ r ∈ domain.riskDefinitions, template.riskDefinition? r.id = none →
        ∀ e ∈ elements, ∀ v ∈ e.riskValues, v.riskDefinition ≠ r.id := by
  rw [List.eq_nil_iff_forall_not_mem]
  constructor
  · intro none r hr gone e he v hv uses
    exact none _ (mem_removedRiskDefinitions.mpr ⟨r, hr, gone, e, he, ⟨v, hv, uses⟩, rfl⟩)
  · intro unused b hb
    obtain ⟨r, hr, gone, e, he, ⟨v, hv, uses⟩, -⟩ := mem_removedRiskDefinitions.mp hb
    exact unused r hr gone e he v hv uses

theorem removedRiskDefinitions_sublist {domain : Domain} {template : DomainTemplate}
    {elements elements' : List Element} (h : elements.Sublist elements') :
    (removedRiskDefinitions domain template elements).Sublist
      (removedRiskDefinitions domain template elements') :=
  List.Sublist.flatMap_right _ fun _ _ =>
    (sortIds_sublist ((h.filter _).map _).subset).map _

/-! ## Whole migrations -/

namespace Migration

variable (m : Migration)

/-- The risk values in use that a risk definition of the template invalidates. -/
def definitionDamage (new : RiskDefinition) : List BreakingChange :=
  match m.domain.riskDefinition? new.id with
  | some old => (m.changeSet new).valuesInUse old m.elements
  | none => []

/-- What would be lost of the data of elements. -/
def damage : List BreakingChange :=
  m.template.riskDefinitions.flatMap m.definitionDamage ++
    removedRiskDefinitions m.domain m.template m.elements ++
    elementTypeBreaks m.domain.elementTypes m.template.elementTypes m.elements

theorem damage_eq_nil_iff :
    m.damage = [] ↔
      (∀ new ∈ m.template.riskDefinitions, m.definitionDamage new = []) ∧
        removedRiskDefinitions m.domain m.template m.elements = [] ∧
        elementTypeBreaks m.domain.elementTypes m.template.elementTypes m.elements = [] := by
  rw [damage, List.append_eq_nil_iff, List.append_eq_nil_iff, List.flatMap_eq_nil_iff, and_assoc]

theorem filter_definitionBreaks (new : RiskDefinition) :
    (m.definitionBreaks new).filter BreakingChange.namesElement = m.definitionDamage new := by
  unfold definitionBreaks definitionDamage
  cases m.domain.riskDefinition? new.id with
  | some old => exact ChangeSet.filter_breaks
  | none =>
    dsimp only
    rw [ChangeSet.unaccepted_eq_breaks new, ChangeSet.filter_breaks]
    exact List.flatMap_eq_nil_iff.mpr fun _ _ => rfl

theorem definitionBreaks_eq_nil_iff (new : RiskDefinition) :
    m.definitionBreaks new = [] ↔
      m.definitionDamage new = [] ∧ ∀ c ∈ (m.changeSet new).toList, c.kind ∈ m.accepted := by
  unfold definitionBreaks definitionDamage
  cases m.domain.riskDefinition? new.id with
  | some old => exact ChangeSet.breaks_eq_nil_iff
  | none =>
    dsimp only
    rw [ChangeSet.unaccepted_eq_breaks new, ChangeSet.breaks_eq_nil_iff]
    exact and_congr_left' (iff_of_true (List.flatMap_eq_nil_iff.mpr fun _ _ => rfl) rfl)

theorem namesElement_of_removed {b : BreakingChange}
    (h : b ∈ removedRiskDefinitions m.domain m.template m.elements) : b.namesElement = true := by
  obtain ⟨_, -, -, _, -, -, rfl⟩ := mem_removedRiskDefinitions.mp h
  rfl

theorem namesElement_of_elementType {b : BreakingChange}
    (h : b ∈ elementTypeBreaks m.domain.elementTypes m.template.elementTypes m.elements) :
    b.namesElement = true := by
  obtain ⟨d, -, hb⟩ := List.mem_flatMap.mp h
  rcases ElementTypeDefinition.mem_breaks.mp hb with ⟨_, _, -, hb⟩ | ⟨_, _, _, -, hb⟩
  · obtain ⟨_, -, -, -, ⟨-, rfl⟩ | ⟨_, _, -, -, -, -, rfl⟩⟩ :=
      ElementTypeDefinition.mem_subTypeBreaks.mp hb
    · rfl
    · rfl
  · obtain ⟨_, -, -, -, _, -, rfl⟩ := ElementTypeDefinition.mem_attributeBreaks.mp hb
    rfl

/-- The entries that name an element are the damage. -/
theorem filter_breaking : m.breaking.filter BreakingChange.namesElement = m.damage := by
  unfold breaking damage
  rw [List.filter_append, List.filter_append, List.filter_flatMap,
    List.filter_eq_self.mpr fun _ => m.namesElement_of_removed,
    List.filter_eq_self.mpr fun _ => m.namesElement_of_elementType]
  simp only [filter_definitionBreaks]

theorem changes_accepted_iff :
    (∀ new ∈ m.template.riskDefinitions, ∀ c ∈ (m.changeSet new).toList, c.kind ∈ m.accepted) ↔
      ∀ s ∈ m.changes, ∀ c ∈ s.toList, c.kind ∈ m.accepted := by
  unfold changes
  constructor
  · intro agreed s hs
    obtain ⟨new, hnew, rfl⟩ := List.mem_map.mp (List.mem_filter.mp hs).1
    exact agreed new hnew
  · intro agreed new hnew c hc
    -- a set with a change in it is not left out
    have kept : (!(m.changeSet new).isEmpty) = true := by
      rw [Bool.not_eq_true', ChangeSet.isEmpty, DistinctList.isEmpty,
        List.isEmpty_eq_false_iff]
      exact List.ne_nil_of_mem hc
    exact agreed _ (List.mem_filter.mpr ⟨List.mem_map_of_mem hnew, kept⟩) c hc

/-- Nothing breaks exactly if nothing is damaged and every change is accepted. -/
theorem breaking_eq_nil_iff :
    m.breaking = [] ↔ m.damage = [] ∧ ∀ s ∈ m.changes, ∀ c ∈ s.toList, c.kind ∈ m.accepted := by
  rw [← changes_accepted_iff]
  unfold breaking damage
  simp only [List.append_eq_nil_iff, List.flatMap_eq_nil_iff, definitionBreaks_eq_nil_iff,
    forall_and]
  tauto

/-! ### Other sets and other elements -/

theorem definitionBreaks_sublist {accepted : EnumSet ChangeKind}
    (more : ∀ k ∈ m.accepted, k ∈ accepted) (new : RiskDefinition) :
    ({ m with accepted }.definitionBreaks new).Sublist (m.definitionBreaks new) := by
  unfold definitionBreaks
  dsimp only
  cases m.domain.riskDefinition? new.id with
  | some old => exact ChangeSet.breaks_sublist more
  | none =>
    dsimp only
    rw [ChangeSet.unaccepted_eq_breaks new, ChangeSet.unaccepted_eq_breaks new]
    exact ChangeSet.breaks_sublist more

theorem breaking_sublist {accepted : EnumSet ChangeKind}
    (more : ∀ k ∈ m.accepted, k ∈ accepted) :
    { m with accepted }.breaking.Sublist m.breaking := by
  refine ((List.Sublist.append ?_ (List.Sublist.refl _)).append (List.Sublist.refl _))
  exact List.Sublist.flatMap_right _ fun new _ => m.definitionBreaks_sublist more new

theorem definitionDamage_sublist {elements : List Element} (h : m.elements.Sublist elements)
    (new : RiskDefinition) :
    (m.definitionDamage new).Sublist ({ m with elements }.definitionDamage new) := by
  unfold definitionDamage
  dsimp only
  cases m.domain.riskDefinition? new.id with
  | some old => exact ChangeSet.valuesInUse_sublist h
  | none => exact List.Sublist.refl _

theorem damage_sublist {elements : List Element} (h : m.elements.Sublist elements) :
    m.damage.Sublist { m with elements }.damage := by
  refine List.Sublist.append (List.Sublist.append ?_ ?_) (elementTypeBreaks_sublist h)
  · exact List.Sublist.flatMap_right _ fun new _ => m.definitionDamage_sublist h new
  · exact removedRiskDefinitions_sublist h

end Migration

end TemplateCatalog
