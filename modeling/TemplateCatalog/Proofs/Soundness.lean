import TemplateCatalog.Proofs.Incarnation.Consistency
import TemplateCatalog.Proofs.Support

/-!
# Soundness of a domain over whole runs

A domain and the store with its elements change in two ways: plans are applied
under the domain as it is, and the domain moves to a template if an evaluation
against the stored elements lets it. `World` puts the two side by side, and
`World.run` takes any number of such steps in any order.

Results:
1. `World.step_sound`: a step leads from a sound world to a sound one, and what
   elements point at keeps its meaning.
2. `World.run_sound`: so does any run, from every point of it to every later one.
-/

namespace TemplateCatalog

/-- A domain with the store that its elements live in. -/
structure World where
  domain : Domain
  store : Store

inductive Action where
  | apply (graph : TemplateGraph) (plan : IncarnationPlan)
  | migrate (template : DomainTemplate) (accepted inert : EnumSet ChangeKind)

namespace World

/-- Applies a plan under the domain, or replaces the domain if it migrates. -/
def step (w : World) : Action → World
  | .apply graph plan => { w with store := (w.store.applyInPlace graph w.domain plan).2 }
  | .migrate template accepted inert =>
    match evaluateMigration w.domain template (w.store.elementsInDomain w.domain.id) accepted
      inert with
    | .ok (.migrated domain _ _) => { w with domain }
    | _ => w

def run (w : World) (as : List Action) : World := as.foldl step w

/-- The definitions of the domain are valid, and its elements are supported. -/
structure Sound (w : World) : Prop where
  valid : ∀ r ∈ w.domain.riskDefinitions, r.validate = .ok ()
  supported : ∀ e ∈ w.store.elements.rows, e.domain = w.domain.id → w.domain.Supports e

/-- Every element of the domain is there later with the same risks, and each of its risk values
points at a category of the same id. -/
structure Keeps (w w' : World) : Prop where
  domain : w'.domain.id = w.domain.id
  elements : ∀ e ∈ w.store.elements.rows, e.domain = w.domain.id →
    ∃ e' ∈ w'.store.elements.rows, e'.id = e.id ∧ e'.domain = e.domain ∧ e'.risks = e.risks ∧
      ∀ v ∈ e.riskValues, ∃ category,
        w.domain.categoryId? v = some category ∧ w'.domain.categoryId? v = some category

variable {w w' w'' : World}

theorem run_append (w : World) (as bs : List Action) : w.run (as ++ bs) = (w.run as).run bs :=
  List.foldl_append

theorem Sound.categoryId?_of_value (h : w.Sound) {e : Element} (he : e ∈ w.store.elements.rows)
    (ofDomain : e.domain = w.domain.id) {v : RiskValueRef} (hv : v ∈ e.riskValues) :
    ∃ category, w.domain.categoryId? v = some category := by
  obtain ⟨r, c, cell, hr, loc⟩ := (h.supported e he ofDomain).values v hv
  exact ⟨c.id, Domain.categoryId?_of_locates hr loc⟩

theorem Sound.keeps_self (h : w.Sound) : w.Keeps w where
  domain := rfl
  elements e he ofDomain := by
    refine ⟨e, he, rfl, rfl, rfl, fun v hv => ?_⟩
    obtain ⟨category, hcategory⟩ := h.categoryId?_of_value he ofDomain hv
    exact ⟨category, hcategory, hcategory⟩

theorem Keeps.trans (h : w.Keeps w') (h' : w'.Keeps w'') : w.Keeps w'' where
  domain := h'.domain.trans h.domain
  elements e he ofDomain := by
    obtain ⟨e', he', hid, hdomain, hrisks, values⟩ := h.elements e he ofDomain
    have ofDomain' : e'.domain = w'.domain.id := by rw [hdomain, ofDomain, h.domain]
    obtain ⟨e'', he'', hid', hdomain', hrisks', values'⟩ := h'.elements e' he' ofDomain'
    refine ⟨e'', he'', hid'.trans hid, hdomain'.trans hdomain, hrisks'.trans hrisks, ?_⟩
    intro v hv
    obtain ⟨category, before, between⟩ := values v hv
    have hv' : v ∈ e'.riskValues := by
      unfold Element.riskValues at hv ⊢
      rw [hrisks]
      exact hv
    obtain ⟨category', between', after⟩ := values' v hv'
    cases between.symm.trans between'
    exact ⟨category, before, after⟩

/-! ## Steps -/

theorem step_apply_sound (h : w.Sound) (graph : TemplateGraph) (plan : IncarnationPlan) :
    (w.step (.apply graph plan)).Sound ∧ w.Keeps (w.step (.apply graph plan)) := by
  simp only [step]
  cases answer : w.store.applyInPlace graph w.domain plan with
  | mk result s' =>
    cases result with
    | error e =>
      cases (Store.applyInPlace_error_iff.mp answer).2
      exact ⟨h, h.keeps_self⟩
    | ok applied =>
      obtain ⟨ws, committed⟩ := Store.applyInPlace_ok answer
      refine ⟨⟨h.valid, committed.supports h.supported⟩, rfl, fun e he ofDomain => ?_⟩
      obtain ⟨e', he', grown⟩ := committed.grows he
      refine ⟨e', he', grown.id_eq, grown.domain_eq, grown.risks_eq, ?_⟩
      intro v hv
      obtain ⟨category, hcategory⟩ := h.categoryId?_of_value he ofDomain hv
      exact ⟨category, hcategory, hcategory⟩

theorem step_migrate_sound (h : w.Sound) (template : DomainTemplate)
    (accepted inert : EnumSet ChangeKind) :
    (w.step (.migrate template accepted inert)).Sound ∧
      w.Keeps (w.step (.migrate template accepted inert)) := by
  simp only [step]
  split
  · next domain changes trail evaluated =>
    obtain ⟨-, template_valid, verdict⟩ := evaluateMigration_eq_ok_iff.mp evaluated
    obtain ⟨noBreaks, rfl, -⟩ := Migration.verdict_eq_migrated_iff.mp verdict.symm
    -- the evaluation sees exactly the stored elements of the domain
    have seen : ∀ e ∈ w.store.elements.rows, e.domain = w.domain.id →
        e ∈ (Migration.ofElements w.domain template (w.store.elementsInDomain w.domain.id)
          accepted inert).elements := by
      intro e he ofDomain
      have stored : e ∈ w.store.elementsInDomain w.domain.id :=
        List.mem_filter.mpr ⟨he, decide_eq_true ofDomain⟩
      exact List.mem_filter.mpr ⟨stored, decide_eq_true ofDomain⟩
    refine ⟨⟨template_valid, fun e he ofDomain => ?_⟩, rfl, fun e he ofDomain => ?_⟩
    · exact Migration.supports_migrate noBreaks h.valid template_valid (seen e he ofDomain)
        (h.supported e he ofDomain)
    · refine ⟨e, he, rfl, rfl, rfl, fun v hv => ?_⟩
      exact (Migration.locates_of_noBreaks noBreaks h.valid template_valid (seen e he ofDomain) hv
        ((h.supported e he ofDomain).values v hv)).2
  · exact ⟨h, h.keeps_self⟩

theorem step_sound (h : w.Sound) (a : Action) : (w.step a).Sound ∧ w.Keeps (w.step a) := by
  cases a with
  | apply graph plan => exact step_apply_sound h graph plan
  | migrate template accepted inert => exact step_migrate_sound h template accepted inert

theorem run_keeps (h : w.Sound) (as : List Action) : (w.run as).Sound ∧ w.Keeps (w.run as) := by
  induction as generalizing w with
  | nil => exact ⟨h, h.keeps_self⟩
  | cons a rest ih =>
    obtain ⟨sound, keeps⟩ := step_sound h a
    obtain ⟨sound', keeps'⟩ := ih sound
    exact ⟨sound', keeps.trans keeps'⟩

/-- A run stays sound, and what is stored at a point of it keeps its meaning to the end. -/
theorem run_sound (w : World) (h : w.Sound) (as bs : List Action) :
    (w.run (as ++ bs)).Sound ∧ (w.run as).Keeps (w.run (as ++ bs)) := by
  rw [run_append]
  exact run_keeps (run_keeps h as).1 bs

/-- An asset is rated in the second impact row, and then the domain gains a third one. -/
theorem run_sound_of_assessment :
    let domain : Domain := .ofTemplate ⟨⟨1⟩⟩ (.ofRiskDefinition (.uniform "R" 2 1))
    let scenario : TemplateItem :=
      { id := ⟨⟨10⟩⟩, nspace := domain.nspace, name := "scenario", elementType := .scenario }
    let asset : TemplateItem :=
      { id := ⟨⟨11⟩⟩, nspace := domain.nspace, name := "asset", elementType := .asset }
    let risk : ResolvedReference :=
      { reference := ⟨⟨12⟩⟩
        targetItem := scenario.id
        kind := .risk none none [⟨"R", 0, ⟨1, 0⟩⟩]
        target := .existing ⟨⟨3⟩⟩ }
    let call := Store.Call.create domain ⟨⟨2⟩⟩ asset ⟨⟨4⟩⟩ [risk]
    let w : World := {
      domain
      store := .ofElement ⟨⟨⟨2⟩⟩, "unit", [domain.id]⟩
        (scenario.toElement ⟨⟨3⟩⟩ ⟨⟨2⟩⟩ domain.id) }
    let assess := Action.apply call.graph call.plan
    let extend := Action.migrate (.ofRiskDefinition (.uniform "R" 3 1)) ⟨fun _ => true⟩ ∅
    (w.run [assess, extend]).domain.riskDefinitions = [.uniform "R" 3 1] ∧
      (w.run [assess, extend]).store.elements.rows.map (·.riskValues) =
        [[], [⟨"R", 0, ⟨1, 0⟩⟩]] ∧
      (w.run ([assess] ++ [extend])).Sound ∧
      (w.run [assess]).Keeps (w.run ([assess] ++ [extend])) := by
  intro domain scenario asset risk call w assess extend
  have sound : w.Sound := by
    refine ⟨by decide, fun e he _ => ?_⟩
    cases List.mem_singleton.mp he
    exact TemplateItem.toElement_supported nofun
  exact ⟨by decide +kernel, by decide +kernel, run_sound w sound [assess] [extend]⟩

end World

end TemplateCatalog
