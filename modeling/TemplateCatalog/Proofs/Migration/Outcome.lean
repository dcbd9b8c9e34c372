import TemplateCatalog.Migration.Evaluate
import TemplateCatalog.Proofs.Collections

/-!
# The outcome of an evaluation

An evaluation answers with an outcome exactly if the template is not older than
the domain's and all of its risk definitions are valid. The outcome is then
the `verdict`: the domain has migrated if nothing breaks, and is blocked by all
that breaks otherwise.

Results:
1. `DomainTemplate.validate_eq_ok_iff`, `DomainTemplate.validate_eq_error_iff`:
   a template is valid, or it fails with the error of its first fault.
2. `evaluateMigration_eq_ok_iff`: when there is an outcome, and which.
3. `evaluateMigration_eq_downgrade_iff`, `evaluateMigration_eq_invalidTemplate_iff`,
   `evaluateMigration_ne_illegalTransition`: when there is an error, and which.
4. `verdict_breaking`: the breaking changes of the outcome are those of the
   migration, whether it is blocked or not.
-/

namespace TemplateCatalog

theorem DomainTemplate.validate_eq_ok_iff {t : DomainTemplate} :
    t.validate = .ok () ↔ ∀ d ∈ t.riskDefinitions, d.validate = .ok () := by
  unfold DomainTemplate.validate
  induction t.riskDefinitions with
  | nil => exact ⟨fun _ _ => nofun, fun _ => rfl⟩
  | cons d rest ih =>
    have step : (d :: rest).forM (·.validate) = .ok () ↔
        d.validate = .ok () ∧ rest.forM (·.validate) = .ok () := by
      show (d.validate >>= fun _ => rest.forM (·.validate)) = .ok () ↔ _
      rw [except_bind_eq_ok]
      exact ⟨fun ⟨⟨⟩, hd, hrest⟩ => ⟨hd, hrest⟩, fun ⟨hd, hrest⟩ => ⟨(), hd, hrest⟩⟩
    rw [step, ih, List.forall_mem_cons]

/-- The error is that of the first risk definition that is not valid. -/
inductive FirstFault (e : ModelError) : List RiskDefinition → Prop
  | here {r : RiskDefinition} {rest : List RiskDefinition} :
      r.validate = .error e → FirstFault e (r :: rest)
  | later {r : RiskDefinition} {rest : List RiskDefinition} :
      r.validate = .ok () → FirstFault e rest → FirstFault e (r :: rest)

theorem DomainTemplate.validate_eq_error_iff {t : DomainTemplate} {e : ModelError} :
    t.validate = .error e ↔ FirstFault e t.riskDefinitions := by
  unfold DomainTemplate.validate
  induction t.riskDefinitions with
  | nil => exact ⟨nofun, nofun⟩
  | cons r rest ih =>
    show (r.validate >>= fun _ => rest.forM (·.validate)) = .error e ↔ _
    constructor
    · intro failed
      cases checked : r.validate with
      | error e' =>
        rw [checked] at failed
        cases failed
        exact .here checked
      | ok u =>
        rw [checked] at failed
        exact .later checked (ih.mp failed)
    · intro fault
      cases fault with
      | here first => rw [first]; rfl
      | later first rest => rw [first]; exact ih.mpr rest

namespace Migration

/-- The outcome of a migration to a valid template. -/
def verdict (m : Migration) : MigrationOutcome :=
  if m.breaking.isEmpty then
    .migrated (m.domain.migrate m.template) m.changes ⟨[.evaluating, .applying, .migrated]⟩
  else .blocked m.breaking m.changes ⟨[.evaluating, .blocked]⟩

theorem outcome_eq (m : Migration) : m.outcome = .ok m.verdict := by
  unfold outcome verdict
  split
  · rfl
  · rfl

theorem verdict_breaking (m : Migration) : m.verdict.breaking = m.breaking := by
  unfold verdict
  split
  · next h => exact (List.isEmpty_iff.mp h).symm
  · rfl

theorem verdict_eq_migrated_iff {m : Migration} {domain : Domain} {changes : List ChangeSet}
    {trail : Trail} :
    m.verdict = .migrated domain changes trail ↔
      m.breaking = [] ∧ domain = m.domain.migrate m.template ∧ changes = m.changes ∧
        trail = ⟨[.evaluating, .applying, .migrated]⟩ := by
  unfold verdict
  rw [← List.isEmpty_iff]
  split
  · next clear => simp [clear, eq_comm]
  · next breaks => simp [breaks]

theorem verdict_eq_blocked_iff {m : Migration} {breaking : List BreakingChange}
    {changes : List ChangeSet} {trail : Trail} :
    m.verdict = .blocked breaking changes trail ↔
      m.breaking ≠ [] ∧ breaking = m.breaking ∧ changes = m.changes ∧
        trail = ⟨[.evaluating, .blocked]⟩ := by
  unfold verdict
  rw [ne_eq, ← List.isEmpty_iff]
  split
  · next clear => simp [clear]
  · next breaks => simp [breaks, eq_comm]

end Migration

/-- An evaluation has an outcome exactly for a valid template that is not older. -/
theorem evaluateMigration_eq_ok_iff {domain : Domain} {template : DomainTemplate}
    {elements : List Element} {accepted inert : EnumSet ChangeKind} {o : MigrationOutcome} :
    evaluateMigration domain template elements accepted inert = .ok o ↔
      template.version.before domain.templateVersion = false ∧
        (∀ d ∈ template.riskDefinitions, d.validate = .ok ()) ∧
        o = (Migration.ofElements domain template elements accepted inert).verdict := by
  rw [← DomainTemplate.validate_eq_ok_iff]
  unfold evaluateMigration
  split
  · next older => simp [older]
  · next notOlder =>
    cases hvalid : template.validate with
    | error e => simp
    | ok u => simp [notOlder, Migration.outcome_eq, eq_comm]

section Errors

variable {domain : Domain} {template : DomainTemplate} {elements : List Element}
  {accepted inert : EnumSet ChangeKind}

theorem evaluateMigration_eq_downgrade_iff {current target : TemplateVersion} :
    evaluateMigration domain template elements accepted inert =
        .error (.downgrade current target) ↔
      template.version.before domain.templateVersion = true ∧
        current = domain.templateVersion ∧ target = template.version := by
  unfold evaluateMigration
  split
  · next older => simp [older, eq_comm]
  · next notOlder => cases template.validate <;> simp [notOlder, Migration.outcome_eq]

theorem evaluateMigration_eq_invalidTemplate_iff {e : ModelError} :
    evaluateMigration domain template elements accepted inert = .error (.invalidTemplate e) ↔
      template.version.before domain.templateVersion = false ∧
        FirstFault e template.riskDefinitions := by
  rw [← DomainTemplate.validate_eq_error_iff]
  unfold evaluateMigration
  split
  · next older => simp [older]
  · next notOlder => cases template.validate <;> simp [notOlder, Migration.outcome_eq]

/-- The trail of a migration never takes a step that is not legal. -/
theorem evaluateMigration_ne_illegalTransition {source destination : MigrationState} :
    evaluateMigration domain template elements accepted inert ≠
      .error (.illegalTransition source destination) := by
  unfold evaluateMigration
  split
  · simp
  · cases template.validate <;> simp [Migration.outcome_eq]

end Errors

end TemplateCatalog
