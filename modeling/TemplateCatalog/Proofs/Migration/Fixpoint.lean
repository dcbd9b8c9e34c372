import TemplateCatalog.Proofs.Migration.Completeness
import TemplateCatalog.Proofs.Migration.Gate

/-!
# A migrated domain stays as it is

A domain that has migrated holds the definitions of its template. If these are
told apart by their ids and their types, every comparison with the template is
a comparison of a definition with itself, so nothing is left to change and
nothing can be lost.

Results:
1. `permitted_migrate`: the migrated domain may always move to its template.
2. `evaluateMigration_fixpoint`: it does, and this changes nothing.
-/

namespace TemplateCatalog

theorem diffRiskDefinition_self {d : RiskDefinition} (shaped : d.WellShaped) :
    (diffRiskDefinition d d).isEmpty = true := by
  rw [ChangeSet.isEmpty, DistinctList.isEmpty, List.isEmpty_iff, List.eq_nil_iff_forall_not_mem]
  intro c hc
  have found : c ∈ Diff.riskDefinition d d := mem_diffRiskDefinition.mp hc
  rw [(Diff.riskDefinition_eq_nil_iff rfl shaped shaped).mpr rfl] at found
  cases found

theorem DomainTemplate.riskDefinition?_of_mem {t : DomainTemplate} {r : RiskDefinition}
    (distinct : (t.riskDefinitions.map (·.id)).Nodup) (hr : r ∈ t.riskDefinitions) :
    t.riskDefinition? r.id = some r :=
  find?_of_nodup distinct hr

section Fixpoint

variable {domain : Domain} {template : DomainTemplate} {elements : List Element}
  {accepted inert : EnumSet ChangeKind}

/-- Next to its template a migrated domain shows no changes. -/
theorem changes_migrate (template_ids : (template.riskDefinitions.map (·.id)).Nodup)
    (valid : ∀ r ∈ template.riskDefinitions, r.validate = .ok ()) :
    (Migration.ofElements (domain.migrate template) template elements accepted inert).changes =
      [] := by
  refine List.filter_eq_nil_iff.mpr fun s hs => ?_
  obtain ⟨r, hr, rfl⟩ := List.mem_map.mp hs
  have found : (domain.migrate template).riskDefinition? r.id = some r :=
    template.riskDefinition?_of_mem template_ids hr
  have shaped := RiskDefinition.validate_eq_ok_iff.mp (valid r hr)
  simp only [Migration.changeSet, Migration.ofElements, found, diffRiskDefinition_self shaped,
    Bool.not_true, Bool.false_eq_true, not_false_eq_true]

theorem permitted_migrate (template_ids : (template.riskDefinitions.map (·.id)).Nodup)
    (template_types : (template.elementTypes.map (·.elementType)).Nodup)
    (valid : ∀ r ∈ template.riskDefinitions, r.validate = .ok ()) :
    Permitted (domain.migrate template) template elements accepted inert where
  agreed s hs := by
    rw [changes_migrate template_ids valid] at hs
    cases hs
  values new hnew old hold _ _ _ _ _ _ _ _ gone := by
    cases hold.symm.trans (template.riskDefinition?_of_mem template_ids hnew)
    exact absurd gone not_removed_self
  definitions r hr gone := by
    cases gone.symm.trans (template.riskDefinition?_of_mem template_ids hr)
  types d hd e _ _ _ := by
    rw [findElementType?_of_mem template_types hd]
    exact d.not_loses_self e

end Fixpoint

/-- A migrated domain keeps what is not of the template. Evaluated against the same template again,
with whatever elements and whatever is accepted, it migrates to itself without any change. -/
theorem evaluateMigration_fixpoint (domain : Domain) (template : DomainTemplate)
    (elements : List Element) (accepted inert : EnumSet ChangeKind)
    (template_ids : (template.riskDefinitions.map (·.id)).Nodup)
    (template_types : (template.elementTypes.map (·.elementType)).Nodup)
    (migrated : Domain) (changes : List ChangeSet) (trail : Trail)
    (h : evaluateMigration domain template elements accepted inert =
      .ok (.migrated migrated changes trail)) :
    migrated.id = domain.id ∧ migrated.name = domain.name ∧
      migrated.configuration = domain.configuration ∧ migrated.catalog = domain.catalog ∧
      ∀ elements' accepted' inert',
        evaluateMigration migrated template elements' accepted' inert' =
          .ok (.migrated migrated [] ⟨[.evaluating, .applying, .migrated]⟩) := by
  obtain ⟨-, valid, outcome⟩ := evaluateMigration_eq_ok_iff.mp h
  obtain ⟨-, rfl, -⟩ := Migration.verdict_eq_migrated_iff.mp outcome.symm
  refine ⟨rfl, rfl, rfl, rfl, fun elements' accepted' inert' => ?_⟩
  have permitted : Permitted (domain.migrate template) template elements' accepted' inert' :=
    permitted_migrate template_ids template_types valid
  refine evaluateMigration_eq_ok_iff.mpr
    ⟨TemplateVersion.not_before_iff.mpr TemplateVersion.not_below_self, valid, Eq.symm ?_⟩
  exact Migration.verdict_eq_migrated_iff.mpr
    ⟨Migration.breaking_eq_nil_iff_permitted.mpr permitted, rfl,
      (changes_migrate template_ids valid).symm, rfl⟩

/-- A row that no value points at goes, and a status joins the one in use. -/
theorem evaluateMigration_fixpoint_of_shorter_impacts :
    let asset (statuses : List String) : ElementTypeDefinition :=
      ElementTypeDefinition.withSubType { elementType := .asset } "server" statuses
    let template (rows : Nat) (statuses : List String) : DomainTemplate :=
      { DomainTemplate.ofRiskDefinition (.uniform "R" rows 1) with
        elementTypes := [asset statuses] }
    let old := template 2 ["running"]
    let new := template 1 ["new", "running"]
    let domain := Domain.ofTemplate ⟨⟨1⟩⟩ old
    let server : Element :=
      { Element.ofRiskValues ⟨⟨5⟩⟩ ⟨⟨1⟩⟩ [⟨"R", 0, ⟨0, 0⟩⟩] with
        subType := some "server"
        status := some "running" }
    let removal : EnumSet ChangeKind := .ofList [.remove]
    let row : Change := .remove (.impact "availability") 1 none
    evaluateMigration domain new [server] removal ∅ =
        .ok (.migrated (domain.migrate new) [⟨"R", .ofList [row]⟩]
          ⟨[.evaluating, .applying, .migrated]⟩) ∧
      evaluateMigration (domain.migrate new) new [server] ∅ ∅ =
        .ok (.migrated (domain.migrate new) [] ⟨[.evaluating, .applying, .migrated]⟩) := by
  intro asset template old new domain server removal row
  have migrates : evaluateMigration domain new [server] removal ∅ =
      .ok (.migrated (domain.migrate new) [⟨"R", .ofList [row]⟩]
        ⟨[.evaluating, .applying, .migrated]⟩) := by
    decide +kernel
  obtain ⟨-, -, -, -, again⟩ := evaluateMigration_fixpoint domain new [server] removal ∅
    (by decide) (by decide) _ _ _ migrates
  exact ⟨migrates, again [server] ∅ ∅⟩

end TemplateCatalog
