import TemplateCatalog.Proofs.Migration.Damage

/-!
# The gate is monotone

Whoever accepts more sees fewer entries, but the same damage: no acceptance
hides what would be lost. Whoever has more elements sees more damage. An
element can also take an entry away, since the damage of a change takes the
place of the entry about the change itself, but it leaves another in its place.

Results:
1. `Migration.clear_of_more_accepted`, `Migration.clear_of_more_elements`: if
   nothing breaks, nothing does with more accepted or with fewer elements.
2. `evaluateMigration_monotone`: the outcomes of two evaluations of which one
   accepts more, or of which one sees more elements.
-/

namespace TemplateCatalog

namespace Migration

variable {m : Migration}

theorem verdict_of_clear (clear : m.breaking = []) :
    m.verdict = .migrated (m.domain.migrate m.template) m.changes
      ⟨[.evaluating, .applying, .migrated]⟩ :=
  verdict_eq_migrated_iff.mpr ⟨clear, rfl, rfl, rfl⟩

theorem isMigrated_verdict_iff : m.verdict.isMigrated = true ↔ m.breaking = [] := by
  constructor
  · intro migrated
    cases answer : m.verdict with
    | migrated => exact (verdict_eq_migrated_iff.mp answer).1
    | blocked =>
      rw [answer] at migrated
      cases migrated
  · intro clear
    rw [verdict_of_clear clear]
    rfl

theorem clear_of_more_accepted {accepted : EnumSet ChangeKind}
    (more : ∀ k ∈ m.accepted, k ∈ accepted) (clear : m.breaking = []) :
    { m with accepted }.breaking = [] := by
  have fewer := m.breaking_sublist more
  rw [clear] at fewer
  exact List.sublist_nil.mp fewer

/-- Without some of the elements there is less damage and nothing more to accept. -/
theorem clear_of_more_elements {elements : List Element} (h : m.elements.Sublist elements)
    (clear : { m with elements }.breaking = []) : m.breaking = [] := by
  obtain ⟨undamaged, agreed⟩ := { m with elements }.breaking_eq_nil_iff.mp clear
  have fewer := m.damage_sublist h
  rw [undamaged] at fewer
  exact m.breaking_eq_nil_iff.mpr ⟨List.sublist_nil.mp fewer, agreed⟩

end Migration

/-- Accepting more takes entries out, none of them about an element. More elements add entries
about elements, and never turn a block into a migration. -/
theorem evaluateMigration_monotone (domain : Domain) (template : DomainTemplate)
    (elements : List Element) (accepted inert : EnumSet ChangeKind) (o : MigrationOutcome)
    (h : evaluateMigration domain template elements accepted inert = .ok o) :
    (∀ accepted' inert' : EnumSet ChangeKind,
      (∀ k ∈ accepted, k ∈ accepted') → (∀ k ∈ inert, k ∈ inert') →
      ∃ o', evaluateMigration domain template elements accepted' inert' = .ok o' ∧
        o'.breaking.Sublist o.breaking ∧
        o'.breaking.filter BreakingChange.namesElement =
          o.breaking.filter BreakingChange.namesElement ∧
        (o.isMigrated = true → o' = o)) ∧
    (∀ elements' : List Element, elements.Sublist elements' →
      ∃ o', evaluateMigration domain template elements' accepted inert = .ok o' ∧
        (o.breaking.filter BreakingChange.namesElement).Sublist
          (o'.breaking.filter BreakingChange.namesElement) ∧
        (o.isMigrated = false → o'.isMigrated = false)) := by
  obtain ⟨notOlder, valid, rfl⟩ := evaluateMigration_eq_ok_iff.mp h
  let m := Migration.ofElements domain template elements accepted inert
  constructor
  · intro accepted' inert' more more'
    have union : ∀ k ∈ accepted.union inert, k ∈ accepted'.union inert' := by
      intro k hk
      rcases Bool.or_eq_true_iff.mp hk with listed | tolerated
      · exact Bool.or_eq_true_iff.mpr (.inl (more k listed))
      · exact Bool.or_eq_true_iff.mpr (.inr (more' k tolerated))
    refine ⟨_, evaluateMigration_eq_ok_iff.mpr ⟨notOlder, valid, rfl⟩, ?_, ?_, ?_⟩
    · rw [Migration.verdict_breaking, Migration.verdict_breaking]
      exact m.breaking_sublist union
    · rw [Migration.verdict_breaking, Migration.verdict_breaking, Migration.filter_breaking,
        Migration.filter_breaking]
      rfl
    · intro migrated
      have clear := Migration.isMigrated_verdict_iff.mp migrated
      rw [Migration.verdict_of_clear clear]
      have stillClear := Migration.clear_of_more_accepted (m := m) union clear
      exact Migration.verdict_of_clear stillClear
  · intro elements' added
    have union := added.filter fun e => decide (e.domain = domain.id)
    refine ⟨_, evaluateMigration_eq_ok_iff.mpr ⟨notOlder, valid, rfl⟩, ?_, ?_⟩
    · rw [Migration.verdict_breaking, Migration.verdict_breaking, Migration.filter_breaking,
        Migration.filter_breaking]
      exact m.damage_sublist union
    · rw [← Bool.not_eq_true, ← Bool.not_eq_true, Migration.isMigrated_verdict_iff,
        Migration.isMigrated_verdict_iff]
      exact mt (Migration.clear_of_more_elements (m := m) union)

/-- A row goes in which an asset is rated, and a risk value gets a color. -/
theorem evaluateMigration_monotone_of_rated_row :
    let domain := Domain.ofTemplate ⟨⟨1⟩⟩ (.ofRiskDefinition (.uniform "R" 2 1))
    let template := DomainTemplate.ofRiskDefinition
      { RiskDefinition.uniform "R" 1 1 with riskValues := [⟨0, some "red", ∅⟩] }
    let asset (id : ElementId) : Element := .ofRiskValues id ⟨⟨1⟩⟩ [⟨"R", 0, ⟨1, 0⟩⟩]
    let colored : Change := .color (.riskValue 0) none (some "red")
    let row : Change := .remove (.impact "availability") 1 none
    let rated (id : ElementId) : BreakingChange := .riskValueInUse "R" 0 ⟨1, 0⟩ id row
    let blocked := MigrationOutcome.blocked [.unaccepted "R" colored, rated ⟨⟨5⟩⟩]
      [⟨"R", .ofList [colored, row]⟩] ⟨[.evaluating, .blocked]⟩
    evaluateMigration domain template [asset ⟨⟨5⟩⟩] ∅ ∅ = .ok blocked ∧
      (∃ o', evaluateMigration domain template [asset ⟨⟨5⟩⟩] ∅ ChangeKind.defaultInert = .ok o' ∧
        o'.breaking.Sublist [.unaccepted "R" colored, rated ⟨⟨5⟩⟩] ∧
        o'.breaking.filter BreakingChange.namesElement = [rated ⟨⟨5⟩⟩]) ∧
      ∃ o', evaluateMigration domain template [asset ⟨⟨6⟩⟩, asset ⟨⟨5⟩⟩] ∅ ∅ = .ok o' ∧
        [rated ⟨⟨5⟩⟩].Sublist (o'.breaking.filter BreakingChange.namesElement) ∧
        o'.isMigrated = false := by
  intro domain template asset colored row rated blocked
  have blocks : evaluateMigration domain template [asset ⟨⟨5⟩⟩] ∅ ∅ = .ok blocked := by
    decide +kernel
  obtain ⟨accepting, adding⟩ :=
    evaluateMigration_monotone domain template [asset ⟨⟨5⟩⟩] ∅ ∅ blocked blocks
  refine ⟨blocks, ?_, ?_⟩
  · obtain ⟨o', answer, fewer, same, -⟩ :=
      accepting ∅ ChangeKind.defaultInert (fun _ => id) fun _ => nofun
    exact ⟨o', answer, fewer, same⟩
  · obtain ⟨o', answer, kept, stays⟩ :=
      adding [asset ⟨⟨6⟩⟩, asset ⟨⟨5⟩⟩] (List.sublist_cons_self _ _)
    exact ⟨o', answer, kept, stays rfl⟩

end TemplateCatalog
