import TemplateCatalog.Proofs.Migration.Outcome
import TemplateCatalog.Proofs.Migration.RiskValues

/-!
# The report of risk values in use

A migration reports a risk value for every removal that hits it. That this
happens exactly to the values that the template invalidates does not depend on
what is accepted.

Results:
1. `riskValueInUse_mem_breaking_iff`: which risk values a migration reports.
2. `Migration.exists_riskValueInUse`, `Migration.invalidated_of_riskValueInUse`:
   every invalidated value is reported, and no other one.
3. `riskValueReport_exact`: the same of the outcome of an evaluation.
-/

namespace TemplateCatalog

/-! ## Membership -/

theorem Change.mem_valuesInUse {change : Change} {old : RiskDefinition} {elements : List Element}
    {b : BreakingChange} :
    b ∈ change.valuesInUse old elements ↔
      ∃ e ∈ elements, ∃ v ∈ e.riskValues, v.riskDefinition = old.id ∧ change.hits old v = true ∧
        b = .riskValueInUse old.id v.category v.cell e.id change := by
  simp only [Change.valuesInUse, List.mem_flatMap, List.mem_map, List.mem_filter,
    Bool.and_eq_true, beq_iff_eq]
  constructor
  · rintro ⟨e, he, v, ⟨hv, hid, hhit⟩, rfl⟩
    exact ⟨e, he, v, hv, hid, hhit, rfl⟩
  · rintro ⟨e, he, v, hv, hid, hhit, rfl⟩
    exact ⟨e, he, v, ⟨hv, hid, hhit⟩, rfl⟩

/-- A risk value is reported by the change that hits it; acceptance plays no part. -/
theorem ChangeSet.riskValueInUse_mem_breaks {s : ChangeSet} {old : RiskDefinition}
    {elements : List Element} {accepted : EnumSet ChangeKind} {d : String} {i : Nat}
    {ref : CellRef} {e : ElementId} {change : Change} :
    .riskValueInUse d i ref e change ∈ s.breaks old elements accepted ↔
      change ∈ s.toList ∧ .riskValueInUse d i ref e change ∈ change.valuesInUse old elements := by
  simp only [ChangeSet.breaks, List.mem_flatMap]
  constructor
  · rintro ⟨c, hc, hb⟩
    split at hb
    · obtain ⟨e', he', v, hv, hid, hhit, heq⟩ := Change.mem_valuesInUse.mp hb
      cases heq
      exact ⟨hc, Change.mem_valuesInUse.mpr ⟨e', he', v, hv, hid, hhit, rfl⟩⟩
    · split at hb
      · simp at hb
      · simp at hb
  · rintro ⟨hc, hb⟩
    refine ⟨change, hc, ?_⟩
    have some_hit : (!(change.valuesInUse old elements).isEmpty) = true := by
      rw [Bool.not_eq_true', List.isEmpty_eq_false_iff]
      exact List.ne_nil_of_mem hb
    rw [if_pos some_hit]
    exact hb

/-- The other checks of a migration never report a risk value. -/
theorem riskValueInUse_not_mem_others (m : Migration) (d : String) (i : Nat) (ref : CellRef)
    (e : ElementId) (change : Change) :
    .riskValueInUse d i ref e change ∉ removedRiskDefinitions m.domain m.template m.elements ∧
      .riskValueInUse d i ref e change ∉
        elementTypeBreaks m.domain.elementTypes m.template.elementTypes m.elements := by
  constructor
  · simp [removedRiskDefinitions]
  · intro h
    obtain ⟨old, -, h⟩ := List.mem_flatMap.mp h
    rcases List.mem_append.mp h with h | h
    · obtain ⟨⟨subType, definition⟩, -, h⟩ := List.mem_flatMap.mp h
      simp only [ElementTypeDefinition.subTypeBreaks] at h
      split at h
      · simp at h
      · simp at h
    · obtain ⟨⟨aspect, definition⟩, -, h⟩ := List.mem_flatMap.mp h
      obtain ⟨⟨key, entry⟩, -, h⟩ := List.mem_flatMap.mp h
      simp only [ElementTypeDefinition.attributeBreaks] at h
      split at h
      · simp at h
      · simp at h

theorem riskValueInUse_mem_breaking_iff {m : Migration} {d : String} {i : Nat} {ref : CellRef}
    {id : ElementId} {change : Change} :
    .riskValueInUse d i ref id change ∈ m.breaking ↔
      ∃ new ∈ m.template.riskDefinitions, ∃ old, m.domain.riskDefinition? new.id = some old ∧
        change ∈ (diffRiskDefinition old new).toList ∧
        ∃ e ∈ m.elements, e.id = id ∧ ⟨d, i, ref⟩ ∈ e.riskValues ∧ d = old.id ∧
          change.hits old ⟨d, i, ref⟩ = true := by
  obtain ⟨notRemoved, notSchema⟩ := riskValueInUse_not_mem_others m d i ref id change
  rw [Migration.breaking, List.mem_append, List.mem_append, or_iff_left notSchema,
    or_iff_left notRemoved, List.mem_flatMap]
  refine exists_congr fun new => and_congr_right fun _ => ?_
  simp only [Migration.definitionBreaks, Migration.changeSet]
  cases m.domain.riskDefinition? new.id with
  | none => simp [ChangeSet.unaccepted]
  | some old =>
    simp only [ChangeSet.riskValueInUse_mem_breaks, Change.mem_valuesInUse, Option.some.injEq,
      exists_eq_left']
    refine and_congr_right fun _ => exists_congr fun e => and_congr_right fun _ => ?_
    constructor
    · rintro ⟨⟨_, _, _⟩, hv, rfl, hhit, heq⟩
      cases heq
      exact ⟨rfl, hv, rfl, hhit⟩
    · rintro ⟨rfl, hv, rfl, hhit⟩
      exact ⟨_, hv, rfl, hhit, rfl⟩

theorem findRiskDefinition?_eq_some {ds : List RiskDefinition} {id : String} {d : RiskDefinition}
    (h : findRiskDefinition? ds id = some d) : d ∈ ds ∧ d.id = id :=
  ⟨List.mem_of_find?_eq_some h, by simpa using List.find?_some h⟩

/-! ## One value -/

namespace Migration

variable {m : Migration} {e : Element} {v : RiskValueRef} {old new : RiskDefinition} {c : Category}
  {cell : MatrixCell}

/-- An invalidated value of an element is reported. -/
theorem exists_riskValueInUse (he : e ∈ m.elements) (hv : v ∈ e.riskValues)
    (hold : m.domain.riskDefinition? v.riskDefinition = some old)
    (hnew : m.template.riskDefinition? v.riskDefinition = some new)
    (old_shaped : old.WellShaped) (new_shaped : new.WellShaped) (loc : old.Locates v c cell)
    (h : Invalidated new v c cell) :
    ∃ change, .riskValueInUse v.riskDefinition v.category v.cell e.id change ∈ m.breaking := by
  obtain ⟨new_mem, new_id⟩ := findRiskDefinition?_eq_some hnew
  obtain ⟨axis, i, gone, rests⟩ := (old_shaped.exists_removed_restsOn_iff new_shaped loc).mpr h
  obtain ⟨label, hchange⟩ := mem_removals_diff_iff.mpr gone
  refine ⟨.remove axis i label, riskValueInUse_mem_breaking_iff.mpr ?_⟩
  exact ⟨new, new_mem, old, by rw [new_id]; exact hold, hchange, e, he, rfl, hv,
    (findRiskDefinition?_eq_some hold).2.symm, Change.hits_iff.mpr ⟨axis, i, label, rfl, rests⟩⟩

/-- A value that is reported is invalidated, if ids tell the template's definitions apart. -/
theorem invalidated_of_riskValueInUse {id : ElementId} {change : Change}
    (template_ids : (m.template.riskDefinitions.map (·.id)).Nodup)
    (hold : m.domain.riskDefinition? v.riskDefinition = some old)
    (hnew : m.template.riskDefinition? v.riskDefinition = some new)
    (old_shaped : old.WellShaped) (new_shaped : new.WellShaped) (loc : old.Locates v c cell)
    (h : .riskValueInUse v.riskDefinition v.category v.cell id change ∈ m.breaking) :
    Invalidated new v c cell := by
  obtain ⟨new_mem, new_id⟩ := findRiskDefinition?_eq_some hnew
  obtain ⟨n, hn, o, ho, hchange, -, -, -, -, hid, hhit⟩ := riskValueInUse_mem_breaking_iff.mp h
  -- the entry names the definition, and no other definition of the template has its id
  have same_id : n.id = new.id := by
    rw [new_id, hid]
    exact (findRiskDefinition?_eq_some ho).2.symm
  cases List.inj_on_of_nodup_map template_ids hn new_mem same_id
  rw [new_id] at ho
  cases hold.symm.trans ho
  obtain ⟨axis, i, label, rfl, rests⟩ := Change.hits_iff.mp hhit
  exact (old_shaped.exists_removed_restsOn_iff new_shaped loc).mp
    ⟨axis, i, mem_removals_diff_iff.mp ⟨label, hchange⟩, rests⟩

end Migration

/-! ## Example definitions -/

/-- A definition with one category, whose matrix has the lowest risk value everywhere. -/
def RiskDefinition.uniform (id : String) (rows columns : Nat) : RiskDefinition where
  id
  probability := { levels := List.replicate columns ⟨0, none, ∅⟩ }
  riskValues := [⟨0, none, ∅⟩]
  categories := [
    { id := "availability"
      impacts := List.replicate rows ⟨0, none, ∅⟩
      matrix := some (List.replicate rows (List.replicate columns ⟨0, none⟩)) }]

/-- A template with one risk definition and nothing else. -/
def DomainTemplate.ofRiskDefinition (d : RiskDefinition) : DomainTemplate where
  id := ⟨⟨0⟩⟩
  name := "template"
  version := {}
  riskDefinitions := [d]

/-- An asset with one risk that has the given values. -/
def Element.ofRiskValues (id : ElementId) (domain : DomainId) (values : List RiskValueRef) :
    Element where
  id
  owner := ⟨⟨0⟩⟩
  domain
  name := "asset"
  elementType := .asset
  risks := [{ scenario := ⟨⟨9⟩⟩, domain, values }]

/-! ## Evaluations -/

/-- An evaluation reports a risk value exactly if it is invalidated, whatever is accepted. -/
theorem riskValueReport_exact (d : Domain) (t : DomainTemplate) (elements : List Element)
    (accepted inert : EnumSet ChangeKind)
    (domain_valid : ∀ r ∈ d.riskDefinitions, r.validate = .ok ())
    (template_valid : ∀ r ∈ t.riskDefinitions, r.validate = .ok ())
    (template_ids : (t.riskDefinitions.map (·.id)).Nodup)
    (not_older : t.version.before d.templateVersion = false) :
    ∃ outcome, evaluateMigration d t elements accepted inert = .ok outcome ∧
      ∀ e ∈ elements, e.domain = d.id → ∀ v ∈ e.riskValues, ∀ old new c cell,
        d.riskDefinition? v.riskDefinition = some old →
        t.riskDefinition? v.riskDefinition = some new → old.Locates v c cell →
        ((∃ change, .riskValueInUse v.riskDefinition v.category v.cell e.id change ∈
            outcome.breaking) ↔ Invalidated new v c cell) := by
  refine ⟨_, evaluateMigration_eq_ok_iff.mpr ⟨not_older, template_valid, rfl⟩, ?_⟩
  intro e he hdomain v hv old new c cell hold hnew loc
  rw [Migration.verdict_breaking]
  have old_shaped := RiskDefinition.validate_eq_ok_iff.mp
    (domain_valid old (findRiskDefinition?_eq_some hold).1)
  have new_shaped := RiskDefinition.validate_eq_ok_iff.mp
    (template_valid new (findRiskDefinition?_eq_some hnew).1)
  constructor
  · rintro ⟨change, reported⟩
    exact Migration.invalidated_of_riskValueInUse template_ids hold hnew old_shaped new_shaped loc
      reported
  · have hmem : e ∈ elements.filter fun x => x.domain = d.id :=
      List.mem_filter.mpr ⟨he, decide_eq_true hdomain⟩
    exact Migration.exists_riskValueInUse hmem hv hold hnew old_shaped new_shaped loc

/-- A value in the second row is reported when that row goes, though every kind is accepted. -/
theorem riskValueReport_of_shorter_impacts :
    ∃ outcome,
      evaluateMigration (.ofTemplate ⟨⟨1⟩⟩ (.ofRiskDefinition (.uniform "R" 2 1)))
        (.ofRiskDefinition (.uniform "R" 1 1))
        [.ofRiskValues ⟨⟨5⟩⟩ ⟨⟨1⟩⟩ [⟨"R", 0, ⟨1, 0⟩⟩]] ⟨fun _ => true⟩ ∅ = .ok outcome ∧
      ∃ change, .riskValueInUse "R" 0 ⟨1, 0⟩ ⟨⟨5⟩⟩ change ∈ outcome.breaking := by
  obtain ⟨outcome, answer, report⟩ := riskValueReport_exact
    (.ofTemplate ⟨⟨1⟩⟩ (.ofRiskDefinition (.uniform "R" 2 1)))
    (.ofRiskDefinition (.uniform "R" 1 1))
    [.ofRiskValues ⟨⟨5⟩⟩ ⟨⟨1⟩⟩ [⟨"R", 0, ⟨1, 0⟩⟩]] ⟨fun _ => true⟩ ∅
    (by decide) (by decide) (by decide) (by decide)
  refine ⟨outcome, answer, ?_⟩
  exact (report _ List.mem_cons_self rfl _ List.mem_cons_self (.uniform "R" 2 1)
    (.uniform "R" 1 1) _ _ rfl rfl ⟨rfl, rfl⟩).mpr (.noCell rfl rfl)

end TemplateCatalog
