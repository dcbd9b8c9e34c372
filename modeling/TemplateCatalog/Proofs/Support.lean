import TemplateCatalog.Proofs.Incarnation.InPlace
import TemplateCatalog.Proofs.Migration.Damage

/-!
# Domains that support elements

A domain supports an element if every risk value of the element resolves in it,
and if it allows the element's sub-type and status where both are set.

Results:
1. `Migration.supports_migrate`: a domain that migrates goes on supporting the
   elements that it supported, and a risk value keeps its category.
2. `Application.Reached.supports`: an application creates supported elements.
3. `Store.Committed.supports`: an application leaves only supported elements in
   a store that held no others.
-/

namespace TemplateCatalog

/-- The domain defines what a risk value points at. -/
def Domain.Resolves (d : Domain) (v : RiskValueRef) : Prop :=
  ∃ r c cell, d.riskDefinition? v.riskDefinition = some r ∧ r.Locates v c cell

/-- What an element refers to by name or position is defined in the domain. -/
structure Domain.Supports (d : Domain) (e : Element) : Prop where
  values : ∀ v ∈ e.riskValues, d.Resolves v
  status : ∀ subType status, e.subType = some subType → e.status = some status →
    ∃ t, d.elementType? e.elementType = some t ∧ t.allows subType status = true

/-- The id of the category that a risk value points at. -/
def Domain.categoryId? (d : Domain) (v : RiskValueRef) : Option String :=
  (d.riskDefinition? v.riskDefinition).bind fun r => (r.categories[v.category]?).map (·.id)

theorem Domain.categoryId?_of_locates {d : Domain} {v : RiskValueRef} {r : RiskDefinition}
    {c : Category} {cell : MatrixCell} (h : d.riskDefinition? v.riskDefinition = some r)
    (loc : r.Locates v c cell) : d.categoryId? v = some c.id := by
  unfold categoryId?
  rw [h, Option.bind_some, loc.category, Option.map_some]

theorem Domain.riskValueFault?_eq_none_iff {d : Domain} {v : RiskValueRef} :
    d.riskValueFault? v = none ↔ d.Resolves v := by
  unfold riskValueFault?
  constructor
  · intro h
    cases hr : d.riskDefinition? v.riskDefinition with
    | none => simp [hr] at h
    | some r =>
      cases hc : r.categories[v.category]? with
      | none => simp [hr, hc] at h
      | some c =>
        cases hcell : c.cell? v.cell with
        | none => simp [hr, hc, hcell] at h
        | some cell => exact ⟨r, c, cell, hr, hc, hcell⟩
  · rintro ⟨r, c, cell, hr, hc, hcell⟩
    simp [hr, hc, hcell]

/-- Support looks at the core and the risk values of an element only. -/
theorem Domain.Supports.of_core {d : Domain} {e e' : Element} (h : d.Supports e)
    (core : e'.core = e.core) (values : ∀ v ∈ e'.riskValues, d.Resolves v) : d.Supports e' where
  values := values
  status subType status hsub hstatus := by
    rw [Element.eq_of_core Element.subType (fun _ => rfl) core] at hsub
    rw [Element.eq_of_core Element.status (fun _ => rfl) core] at hstatus
    rw [Element.eq_of_core Element.elementType (fun _ => rfl) core]
    exact h.status subType status hsub hstatus

/-! ## Migrations -/

namespace Migration

variable {m : Migration} {e : Element}

theorem riskDefinition?_of_used (noBreaks : m.breaking = []) (he : e ∈ m.elements)
    {v : RiskValueRef} (hv : v ∈ e.riskValues) {old : RiskDefinition}
    (hold : m.domain.riskDefinition? v.riskDefinition = some old) :
    ∃ new, m.template.riskDefinition? v.riskDefinition = some new := by
  cases hnew : m.template.riskDefinition? v.riskDefinition with
  | some new => exact ⟨new, rfl⟩
  | none =>
    obtain ⟨old_mem, old_id⟩ := findRiskDefinition?_eq_some hold
    obtain ⟨-, unused, -⟩ := m.damage_eq_nil_iff.mp (m.breaking_eq_nil_iff.mp noBreaks).1
    have gone : m.template.riskDefinition? old.id = none := by rw [old_id, hnew]
    exact absurd old_id.symm
      (removedRiskDefinitions_eq_nil_iff.mp unused old old_mem gone e he v hv)

theorem locates_of_noBreaks (noBreaks : m.breaking = [])
    (domain_valid : ∀ r ∈ m.domain.riskDefinitions, r.validate = .ok ())
    (template_valid : ∀ r ∈ m.template.riskDefinitions, r.validate = .ok ())
    (he : e ∈ m.elements) {v : RiskValueRef} (hv : v ∈ e.riskValues)
    (resolves : m.domain.Resolves v) :
    (m.domain.migrate m.template).Resolves v ∧
      ∃ id, m.domain.categoryId? v = some id ∧
        (m.domain.migrate m.template).categoryId? v = some id := by
  obtain ⟨old, c, cell, hold, loc⟩ := resolves
  obtain ⟨new, hnew⟩ := riskDefinition?_of_used noBreaks he hv hold
  have old_shaped := RiskDefinition.validate_eq_ok_iff.mp
    (domain_valid old (findRiskDefinition?_eq_some hold).1)
  have new_shaped := RiskDefinition.validate_eq_ok_iff.mp
    (template_valid new (findRiskDefinition?_eq_some hnew).1)
  have valid : ¬ Invalidated new v c cell := by
    intro invalidated
    obtain ⟨change, reported⟩ :=
      exists_riskValueInUse he hv hold hnew old_shaped new_shaped loc invalidated
    rw [noBreaks] at reported
    cases reported
  -- each way not to resolve in the template is a way to be invalidated
  cases hc : new.categories[v.category]? with
  | none => exact absurd (.noCategory hc) valid
  | some c' =>
    have same : c.id = c'.id := by
      by_contra other
      exact valid (.otherCategory hc other)
    cases hcell : c'.cell? v.cell with
    | none => exact absurd (.noCell hc hcell) valid
    | some cell' =>
      have loc' : new.Locates v c' cell' := ⟨hc, hcell⟩
      refine ⟨⟨new, c', cell', hnew, loc'⟩, c.id, Domain.categoryId?_of_locates hold loc, ?_⟩
      rw [same]
      exact Domain.categoryId?_of_locates hnew loc'

/-- Nothing that a supported element relies on is lost by a migration without breaks. -/
theorem supports_migrate (noBreaks : m.breaking = [])
    (domain_valid : ∀ r ∈ m.domain.riskDefinitions, r.validate = .ok ())
    (template_valid : ∀ r ∈ m.template.riskDefinitions, r.validate = .ok ())
    (he : e ∈ m.elements) (supported : m.domain.Supports e) :
    (m.domain.migrate m.template).Supports e := by
  refine ⟨fun v hv => ?_, fun subType status hsub hstatus => ?_⟩
  · exact (locates_of_noBreaks noBreaks domain_valid template_valid he hv
      (supported.values v hv)).1
  · obtain ⟨t, ht, allowed⟩ := supported.status subType status hsub hstatus
    obtain ⟨htypes, type⟩ := findElementType?_eq_some ht
    obtain ⟨-, -, types⟩ := m.damage_eq_nil_iff.mp (m.breaking_eq_nil_iff.mp noBreaks).1
    have keeps := elementTypeBreaks_eq_nil_iff.mp types t htypes e he type.symm
    rw [type] at keeps
    exact ElementTypeDefinition.allows_of_not_loses keeps hsub hstatus allowed

end Migration

/-! ## Applications -/

theorem TemplateItem.toElement_supported {d : Domain} {item : TemplateItem} {id : ElementId}
    {unit : UnitId}
    (h : ∀ subType, item.subType = some subType → d.definesSubType item subType = true) :
    d.Supports (item.toElement id unit d.id) := by
  refine ⟨fun _ => nofun, fun subType status hsub hstatus => ?_⟩
  change item.subType = some subType at hsub
  change item.status = some status at hstatus
  obtain ⟨t, ht, allowed⟩ := (Option.any_eq_true _ _).mp (h subType hsub)
  rw [hstatus, Option.getD_some] at allowed
  exact ⟨t, ht, allowed⟩

theorem Workspace.Admitted.resolves {d : Domain} {ws : Workspace} {holder : ElementId}
    {m : Amendment} (h : Admitted d ws holder m) {v : RiskValueRef} (hv : v ∈ m.values) :
    d.Resolves v := by
  cases h with
  | risk _ _ _ _ _ _ checked => exact Domain.riskValueFault?_eq_none_iff.mp (checked v hv)
  | link | part | member | control | requirement => cases hv

/-- What an application creates belongs to its domain and is supported by it. -/
theorem Application.Reached.supports {a : Application} {ws : Workspace} (h : a.Reached ws) :
    ∀ e ∈ ws.created, e.domain = a.domain.id ∧ a.domain.Supports e := by
  induction h with
  | start => exact fun _ => nofun
  | create reached made fresh ih =>
    obtain ⟨rfl, defined⟩ := Domain.instantiate_eq_ok made
    intro e he
    rcases List.mem_append.mp he with old | new
    · exact ih e old
    · cases List.mem_singleton.mp new
      exact ⟨rfl, TemplateItem.toElement_supported defined⟩
  | @amend ws ws' holder m reached admitted updated ih =>
    intro e he
    rcases reached.tracked.mem_created_update updated he with old | ⟨x, hx, -, rfl⟩
    · exact ih e old
    · obtain ⟨ofDomain, supported⟩ := ih x hx
      have core := Amendment.core_apply m x
      refine ⟨(Element.eq_of_core Element.domain (fun _ => rfl) core).trans ofDomain,
        supported.of_core core fun v hv => ?_⟩
      rcases Amendment.mem_riskValues_apply hv with before | added
      · exact supported.values v before
      · exact admitted.resolves added

/-- Stored elements of the domain, new ones and changed ones are supported. -/
theorem Store.Committed.supports {s s' : Store} {a : Application} {applied : AppliedIncarnation}
    {ws : Workspace} (c : Committed s a applied s' ws)
    (h : ∀ e ∈ s.elements.rows, e.domain = a.domain.id → a.domain.Supports e) :
    ∀ e ∈ s'.elements.rows, e.domain = a.domain.id → a.domain.Supports e := by
  intro e he ofDomain
  rcases c.mem_rows he with created | modified | untouched
  · exact (c.reached.supports e created).2
  · obtain ⟨x, hx, -, grown⟩ := c.reached.modified_origin c.connection modified
    have supported := h x hx (grown.domain_eq.symm.trans ofDomain)
    refine supported.of_core grown.core_eq fun v hv => supported.values v ?_
    rw [← grown.riskValues_eq]
    exact hv
  · exact h e untouched ofDomain

end TemplateCatalog
