import TemplateCatalog.Proofs.Migration.Damage
import TemplateCatalog.Proofs.Model.Version

/-!
# The gate of a migration

A migration is `Permitted` if every change is of an accepted or an inert kind,
if no risk value of an element rests on an entry that goes, if no element has a
value of a risk definition that goes, and if no element loses anything that its
type defined. These are all the ways in which a template can do harm, and each
of them holds back a migration by itself.

Results:
1. `Migration.breaking_eq_nil_iff_permitted`: nothing breaks exactly in a
   permitted migration.
2. `evaluateMigration_gate`: each answer of an evaluation, with the condition
   under which it is given.
-/

namespace TemplateCatalog

/-! ## What permits a migration -/

/-- Nothing that elements of the domain use is lost, and every change was agreed to. -/
structure Permitted (domain : Domain) (template : DomainTemplate) (elements : List Element)
    (accepted inert : EnumSet ChangeKind) : Prop where
  /-- Every reported change is of an accepted or an inert kind. -/
  agreed : ∀ s ∈ (Migration.ofElements domain template elements accepted inert).changes,
    ∀ c ∈ s.toList, c.kind ∈ accepted ∨ c.kind ∈ inert
  /-- No risk value rests on an entry of an axis that is removed. -/
  values : ∀ new ∈ template.riskDefinitions, ∀ old, domain.riskDefinition? new.id = some old →
    ∀ e ∈ elements, e.domain = domain.id → ∀ v ∈ e.riskValues, v.riskDefinition = new.id →
      ∀ axis i, Removed old new axis i → ¬ RestsOn old v axis i
  /-- No risk value is of a definition that only the domain has. -/
  definitions : ∀ r ∈ domain.riskDefinitions, template.riskDefinition? r.id = none →
    ∀ e ∈ elements, e.domain = domain.id → ∀ v ∈ e.riskValues, v.riskDefinition ≠ r.id
  /-- No sub-type, status or attribute in use is lost. -/
  types : ∀ d ∈ domain.elementTypes, ∀ e ∈ elements, e.domain = domain.id →
    e.elementType = d.elementType →
      ¬ d.Loses (findElementType? template.elementTypes d.elementType) e

namespace Migration

variable {m : Migration}

/-- A definition does no damage exactly if no risk value rests on what it removes. -/
theorem definitionDamage_eq_nil_iff {new : RiskDefinition} :
    m.definitionDamage new = [] ↔ ∀ old, m.domain.riskDefinition? new.id = some old →
      ∀ e ∈ m.elements, ∀ v ∈ e.riskValues, v.riskDefinition = new.id →
        ∀ axis i, Removed old new axis i → ¬ RestsOn old v axis i := by
  unfold definitionDamage changeSet
  cases found : m.domain.riskDefinition? new.id with
  | none => simp
  | some old =>
    have same_id : old.id = new.id := (findRiskDefinition?_eq_some found).2
    simp only [ChangeSet.valuesInUse, List.flatMap_eq_nil_iff, Option.some.injEq, forall_eq']
    constructor
    · intro unhit e he v hv named axis i gone rests
      obtain ⟨label, hc⟩ := mem_removals_diff_iff.mpr gone
      have hit : .riskValueInUse old.id v.category v.cell e.id (.remove axis i label) ∈
          (Change.remove axis i label).valuesInUse old m.elements :=
        Change.mem_valuesInUse.mpr ⟨e, he, v, hv, named.trans same_id.symm,
          Change.hits_iff.mpr ⟨axis, i, label, rfl, rests⟩, rfl⟩
      rw [unhit _ hc] at hit
      cases hit
    · intro unhit c hc
      refine List.eq_nil_iff_forall_not_mem.mpr fun b hb => ?_
      obtain ⟨e, he, v, hv, named, hit, -⟩ := Change.mem_valuesInUse.mp hb
      obtain ⟨axis, i, label, rfl, rests⟩ := Change.hits_iff.mp hit
      exact unhit e he v hv (named.trans same_id) axis i
        (mem_removals_diff_iff.mp ⟨label, hc⟩) rests

theorem mem_accepted_ofElements {domain : Domain} {template : DomainTemplate}
    {elements : List Element} {accepted inert : EnumSet ChangeKind} {k : ChangeKind} :
    k ∈ (ofElements domain template elements accepted inert).accepted ↔
      k ∈ accepted ∨ k ∈ inert :=
  Bool.or_eq_true_iff

theorem forall_mem_ofElements {domain : Domain} {template : DomainTemplate}
    {elements : List Element} {accepted inert : EnumSet ChangeKind} {P : Element → Prop} :
    (∀ e ∈ (ofElements domain template elements accepted inert).elements, P e) ↔
      ∀ e ∈ elements, e.domain = domain.id → P e := by
  simp only [ofElements, List.mem_filter, decide_eq_true_eq, and_imp]

/-- Nothing breaks exactly in a permitted migration. -/
theorem breaking_eq_nil_iff_permitted {domain : Domain} {template : DomainTemplate}
    {elements : List Element} {accepted inert : EnumSet ChangeKind} :
    (ofElements domain template elements accepted inert).breaking = [] ↔
      Permitted domain template elements accepted inert := by
  rw [breaking_eq_nil_iff, damage_eq_nil_iff, removedRiskDefinitions_eq_nil_iff,
    elementTypeBreaks_eq_nil_iff]
  simp only [definitionDamage_eq_nil_iff, mem_accepted_ofElements, forall_mem_ofElements]
  constructor
  · rintro ⟨⟨values, definitions, types⟩, agreed⟩
    exact ⟨agreed, values, definitions, types⟩
  · rintro ⟨agreed, values, definitions, types⟩
    exact ⟨⟨values, definitions, types⟩, agreed⟩

end Migration

/-! ## Answers -/

/-- An evaluation refuses an older template, then the first risk definition that is not valid, and
nothing else. Any other template leads to a migration if it is permitted, and to a block if not. -/
theorem evaluateMigration_gate (domain : Domain) (template : DomainTemplate)
    (elements : List Element) (accepted inert : EnumSet ChangeKind) :
    let answer := evaluateMigration domain template elements accepted inert
    let m := Migration.ofElements domain template elements accepted inert
    let admissible := ¬ template.version.Below domain.templateVersion ∧
      ∀ r ∈ template.riskDefinitions, r.validate = .ok ()
    (∀ current target, answer = .error (.downgrade current target) ↔
      template.version.Below domain.templateVersion ∧
        current = domain.templateVersion ∧ target = template.version) ∧
    (∀ e, answer = .error (.invalidTemplate e) ↔
      ¬ template.version.Below domain.templateVersion ∧ FirstFault e template.riskDefinitions) ∧
    (∀ source destination, answer ≠ .error (.illegalTransition source destination)) ∧
    (∀ migrated changes trail, answer = .ok (.migrated migrated changes trail) ↔
      admissible ∧ Permitted domain template elements accepted inert ∧
        migrated = domain.migrate template ∧ changes = m.changes ∧
        trail = ⟨[.evaluating, .applying, .migrated]⟩) ∧
    (∀ breaking changes trail, answer = .ok (.blocked breaking changes trail) ↔
      admissible ∧ ¬ Permitted domain template elements accepted inert ∧
        breaking = m.breaking ∧ changes = m.changes ∧ trail = ⟨[.evaluating, .blocked]⟩) := by
  intro answer m admissible
  have outcome (o : MigrationOutcome) : answer = .ok o ↔ admissible ∧ m.verdict = o := by
    rw [evaluateMigration_eq_ok_iff, TemplateVersion.not_before_iff, ← and_assoc, eq_comm (a := o)]
  refine ⟨fun _ _ => ?_, fun e => ?_, fun _ _ => evaluateMigration_ne_illegalTransition,
    fun _ _ _ => ?_, fun _ _ _ => ?_⟩
  · rw [evaluateMigration_eq_downgrade_iff, TemplateVersion.before_iff]
  · rw [evaluateMigration_eq_invalidTemplate_iff, TemplateVersion.not_before_iff]
  · rw [outcome, Migration.verdict_eq_migrated_iff, Migration.breaking_eq_nil_iff_permitted]
    rfl
  · rw [outcome, Migration.verdict_eq_blocked_iff, ne_eq, Migration.breaking_eq_nil_iff_permitted]

end TemplateCatalog
