import TemplateCatalog.Proofs.Migration.Fixpoint

/-!
# The risk definitions of a migrated domain

A migrated domain takes over the risk definitions of its template. Each of them
is valid, but each was checked by itself: that no id is given twice is up to
the template. Where an id is given twice, look-ups find the first definition
that has it, and the others are out of sight.

Results:
1. `evaluateMigration_definitions`: what a migration brings, and exactly when
   every definition is found under its id.
2. `migrated_definition_shadowed`: a valid template can hide a definition.
-/

namespace TemplateCatalog

/-- Valid risk definitions, no two of them with one id, each found under its own. -/
structure Domain.WellDefined (d : Domain) : Prop where
  valid : ∀ r ∈ d.riskDefinitions, r.validate = .ok ()
  distinct : (d.riskDefinitions.map (·.id)).Nodup
  found : ∀ r ∈ d.riskDefinitions, d.riskDefinition? r.id = some r

/-- A look-up finds the definition that has the id and before which none has it. -/
theorem findRiskDefinition?_eq_some_iff {ds : List RiskDefinition} {id : String}
    {r : RiskDefinition} :
    findRiskDefinition? ds id = some r ↔
      r.id = id ∧ ∃ before behind, ds = before ++ r :: behind ∧ ∀ x ∈ before, x.id ≠ id := by
  unfold findRiskDefinition?
  rw [List.find?_eq_some_iff_append]
  simp

theorem exists_riskDefinition?_of_mem {d : Domain} {r : RiskDefinition}
    (hr : r ∈ d.riskDefinitions) : ∃ first, d.riskDefinition? r.id = some first := by
  refine Option.isSome_iff_exists.mp (List.find?_isSome.mpr ⟨r, hr, ?_⟩)
  exact beq_self_eq_true r.id

/-- Valid definitions with distinct ids are all that it takes. -/
theorem Domain.wellDefined_iff {d : Domain} (valid : ∀ r ∈ d.riskDefinitions, r.validate = .ok ()) :
    d.WellDefined ↔ (d.riskDefinitions.map (·.id)).Nodup :=
  ⟨fun h => h.distinct, fun distinct => ⟨valid, distinct, fun _ hr => find?_of_nodup distinct hr⟩⟩

/-- The definitions of a migrated domain are the valid ones of its template, and each id leads to
the first definition that has it. Every definition is found under its id exactly if the template
gives no id twice. -/
theorem evaluateMigration_definitions (domain : Domain) (template : DomainTemplate)
    (elements : List Element) (accepted inert : EnumSet ChangeKind) (migrated : Domain)
    (changes : List ChangeSet) (trail : Trail)
    (h : evaluateMigration domain template elements accepted inert =
      .ok (.migrated migrated changes trail)) :
    migrated.riskDefinitions = template.riskDefinitions ∧
      (∀ r ∈ migrated.riskDefinitions, r.validate = .ok ()) ∧
      (∀ r ∈ migrated.riskDefinitions, ∃ first before behind,
        migrated.riskDefinition? r.id = some first ∧ first.id = r.id ∧
          migrated.riskDefinitions = before ++ first :: behind ∧ ∀ x ∈ before, x.id ≠ r.id) ∧
      (migrated.WellDefined ↔ (template.riskDefinitions.map (·.id)).Nodup) := by
  obtain ⟨-, valid, outcome⟩ := evaluateMigration_eq_ok_iff.mp h
  obtain ⟨-, rfl, -⟩ := Migration.verdict_eq_migrated_iff.mp outcome.symm
  refine ⟨rfl, valid, fun r hr => ?_, Domain.wellDefined_iff valid⟩
  obtain ⟨first, found⟩ := exists_riskDefinition?_of_mem hr
  obtain ⟨sameId, before, behind, split, others⟩ := findRiskDefinition?_eq_some_iff.mp found
  exact ⟨first, before, behind, found, sameId, split, others⟩

/-- One definition gets a second row of impacts and another one joins; each is found under its
id. -/
theorem evaluateMigration_definitions_of_two :
    let old := DomainTemplate.ofRiskDefinition (.uniform "R" 1 1)
    let new : DomainTemplate :=
      { old with riskDefinitions := [.uniform "R" 2 1, .uniform "S" 1 1] }
    let domain := Domain.ofTemplate ⟨⟨1⟩⟩ old
    let row : Change := .add (.impact "availability") 1 none
    evaluateMigration domain new [] (.ofList [.add]) ChangeKind.defaultInert =
        .ok (.migrated (domain.migrate new)
          [⟨"R", .ofList [row]⟩, newRiskDefinition (.uniform "S" 1 1)]
          ⟨[.evaluating, .applying, .migrated]⟩) ∧
      (domain.migrate new).WellDefined := by
  intro old new domain row
  have migrates : evaluateMigration domain new [] (.ofList [.add]) ChangeKind.defaultInert =
      .ok (.migrated (domain.migrate new)
        [⟨"R", .ofList [row]⟩, newRiskDefinition (.uniform "S" 1 1)]
        ⟨[.evaluating, .applying, .migrated]⟩) := by
    decide +kernel
  obtain ⟨-, -, -, wellDefined⟩ :=
    evaluateMigration_definitions domain new [] (.ofList [.add]) ChangeKind.defaultInert
      _ _ _ migrates
  exact ⟨migrates, wellDefined.mpr (by decide)⟩

/-- The ids of the domain are distinct and both definitions of the template are valid. Yet in the
migrated domain the second one is not found under its id. -/
theorem migrated_definition_shadowed :
    let old := DomainTemplate.ofRiskDefinition (.uniform "R" 1 1)
    let new : DomainTemplate :=
      { old with riskDefinitions := [.uniform "R" 1 1, .uniform "R" 2 1] }
    let domain := Domain.ofTemplate ⟨⟨1⟩⟩ old
    let migrated := domain.migrate new
    (domain.riskDefinitions.map (·.id)).Nodup ∧
      (∃ changes trail, evaluateMigration domain new [] (.ofList [.add]) ChangeKind.defaultInert =
        .ok (.migrated migrated changes trail)) ∧
      .uniform "R" 2 1 ∈ migrated.riskDefinitions ∧
      migrated.riskDefinition? "R" = some (.uniform "R" 1 1) ∧ ¬ migrated.WellDefined := by
  intro old new domain migrated
  have migrates : evaluateMigration domain new [] (.ofList [.add]) ChangeKind.defaultInert =
      .ok (.migrated migrated [⟨"R", .ofList [.add (.impact "availability") 1 none]⟩]
        ⟨[.evaluating, .applying, .migrated]⟩) := by
    decide +kernel
  have repeated : ¬ (migrated.riskDefinitions.map (·.id)).Nodup := by decide
  exact ⟨by decide, ⟨_, _, migrates⟩, by decide, by decide, fun h => repeated h.distinct⟩

end TemplateCatalog
