import TemplateCatalog.Proofs.Incarnation.Workspace

/-!
# What wiring does to a workspace

`Wiring.amendment?` reads off a reference which element it amends, and how.
`Workspace.Admitted` lists the checks that go with an amendment; risks and
implementations are for new elements only.

Result: `Wiring.wire_cases`. To realize a reference is to do nothing if it is a
copy, else to make its amendment after all checks.
-/

namespace TemplateCatalog

namespace Workspace

/-- The workspace finds an element of a type. -/
def Has (ws : Workspace) (id : ElementId) (t : ElementType) : Prop :=
  ∃ e, ws.element id = .ok e ∧ e.elementType = t

/-- The checks that an amendment of an element passes. -/
inductive Admitted (domain : Domain) (ws : Workspace) (holder : ElementId) : Amendment → Prop
  | link {l : CustomLink} {t : ElementType} :
      ws.Has l.target t → Admitted domain ws holder (.link l)
  | part {p : ElementId} {t : ElementType} :
      t.isComposite = true → ws.Has holder t → ws.Has p t → Admitted domain ws holder (.part p)
  | member {m : ElementId} {t : ElementType} :
      ws.Has holder .scope → ws.Has m t → Admitted domain ws holder (.member m)
  | risk {t : ElementType} {scenario : ElementId} {owner mitigation : Option ElementId}
      {values : List RiskValueRef} :
      holder ∈ ws.created.map (·.id) → t.isRiskAffected = true → ws.Has holder t →
      ws.Has scenario .scenario → (∀ p, owner = some p → ws.Has p .person) →
      (∀ c, mitigation = some c → ws.Has c .control) →
      (∀ v ∈ values, domain.riskValueFault? v = none) →
      Admitted domain ws holder (.risk scenario domain.id owner mitigation values)
  | control {t : ElementType} {c : ControlImplementation} :
      holder ∈ ws.created.map (·.id) → t.isRiskAffected = true → ws.Has holder t →
      ws.Has c.control .control → (∀ p, c.responsible = some p → ws.Has p .person) →
      Admitted domain ws holder (.control c)
  | requirement {t : ElementType} {r : RequirementImplementation} :
      holder ∈ ws.created.map (·.id) → t.isRiskAffected = true → ws.Has holder t →
      ws.Has r.control .control → (∀ p, r.responsible = some p → ws.Has p .person) →
      Admitted domain ws holder (.requirement r)

variable {ws ws' : Workspace} {id : ElementId} {role : String}

theorem Admitted.open_or_new {domain : Domain} {a : Amendment} (h : Admitted domain ws id a) :
    a.isOpen = true ∨ id ∈ ws.created.map (·.id) := by
  cases h with
  | link | part | member => exact .inl rfl
  | risk new | control new | requirement new => exact .inr new

theorem has_of_new (h : id ∈ ws.created.map (·.id)) : ∃ t, ws.Has id t := by
  cases found : find? ws.created id with
  | none => exact absurd h (find?_eq_none_iff.mp found)
  | some e => exact ⟨e.elementType, e, element_of_created found, rfl⟩

/-! ## Checks -/

theorem requireType_eq_ok_iff {expected : ElementType} :
    ws.requireType id expected role = .ok () ↔ ws.Has id expected := by
  unfold requireType Has
  rw [except_bind_eq_ok]
  refine exists_congr fun e => and_congr_right fun _ => ?_
  split
  · next h => exact ⟨fun _ => h, fun _ => rfl⟩
  · next h => exact ⟨nofun, fun e => absurd e h⟩

theorem requireTypeIf_eq_ok_iff {o : Option ElementId} {expected : ElementType} :
    ws.requireTypeIf o expected role = .ok () ↔ ∀ i, o = some i → ws.Has i expected := by
  unfold requireTypeIf
  cases o with
  | none => exact ⟨fun _ _ => nofun, fun _ => rfl⟩
  | some i =>
    rw [requireType_eq_ok_iff]
    exact ⟨fun h _ e => Option.some.inj e ▸ h, fun h => h i rfl⟩

theorem requireRiskAffected_eq_ok_iff :
    ws.requireRiskAffected id = .ok () ↔ ∃ t, t.isRiskAffected = true ∧ ws.Has id t := by
  unfold requireRiskAffected Has
  rw [except_bind_eq_ok]
  constructor
  · rintro ⟨e, found, h⟩
    split at h
    · next affected => exact ⟨_, affected, e, found, rfl⟩
    · cases h
  · rintro ⟨_, affected, e, found, rfl⟩
    exact ⟨e, found, if_pos affected⟩

/-! ## Parts and members -/

theorem addPart_eq_ok {composite part : ElementId} (h : ws.addPart composite part = .ok ws') :
    (∀ domain, Admitted domain ws composite (.part part)) ∧
      ws.update composite (Amendment.part part).apply = .ok ws' := by
  unfold addPart at h
  obtain ⟨c, hc, h⟩ := except_bind_eq_ok.mp h
  obtain ⟨p, hp, h⟩ := except_bind_eq_ok.mp h
  split at h
  · next allowed =>
    obtain ⟨composed, same⟩ := Bool.and_eq_true_iff.mp allowed
    have sameType : p.elementType = c.elementType := (of_decide_eq_true same).symm
    exact ⟨fun _ => .part composed ⟨c, hc, rfl⟩ ⟨p, hp, sameType⟩, h⟩
  · cases h

theorem addMember_eq_ok {scope member : ElementId} (h : ws.addMember scope member = .ok ws') :
    (∀ domain, Admitted domain ws scope (.member member)) ∧
      ws.update scope (Amendment.member member).apply = .ok ws' := by
  unfold addMember at h
  obtain ⟨⟨⟩, isScope, h⟩ := except_bind_eq_ok.mp h
  obtain ⟨m, hm, h⟩ := except_bind_eq_ok.mp h
  exact ⟨fun _ => .member (requireType_eq_ok_iff.mp isScope) ⟨m, hm, rfl⟩, h⟩

end Workspace

theorem Domain.checkRiskValues_eq_ok_iff {domain : Domain} {item : ItemId}
    {values : List RiskValueRef} :
    domain.checkRiskValues item values = .ok () ↔
      ∀ v ∈ values, domain.riskValueFault? v = none := by
  induction values with
  | nil => exact ⟨fun _ _ => nofun, fun _ => rfl⟩
  | cons v rest ih =>
    rw [List.forall_mem_cons, ← ih, Domain.checkRiskValues]
    cases domain.riskValueFault? v with
    | none => simp
    | some fault => simp

namespace Wiring

open Workspace

/-- The element that a reference amends, and how; copies amend nothing. -/
def amendment? (x : Wiring) (r : ResolvedReference) : Option (ElementId × Amendment) := do
  let target ← (x.plan.targetElement x.description r.target).toOption
  match r.kind with
  | .copy | .copyAlways => none
  | .link linkType attributes =>
    return (x.origin, .link { linkType, target, domain := x.domain.id, attributes })
  | .linkExternal linkType attributes =>
    return (target, .link { linkType, target := x.origin, domain := x.domain.id, attributes })
  | .part => return (x.origin, .part target)
  | .composite => return (target, .part x.origin)
  | .scope => return (target, .member x.origin)
  | .member => return (x.origin, .member target)
  | .risk _ _ values =>
    let owner ← (x.auxiliary r .riskOwner).toOption
    let mitigation ← (x.auxiliary r .mitigation).toOption
    return (x.origin, .risk target x.domain.id owner mitigation values)
  | .controlImplementation _ description =>
    let responsible ← (x.auxiliary r .responsible).toOption
    return (x.origin, .control { control := target, responsible, description })
  | .requirementImplementation status statement _ =>
    let responsible ← (x.auxiliary r .responsible).toOption
    return (x.origin, .requirement { control := target, status, statement, responsible })

variable {x : Wiring} {ws ws' : Workspace} {r : ResolvedReference}

theorem amendment?_of_isCopy (h : r.kind.type.isCopy = true) : x.amendment? r = none := by
  unfold amendment?
  cases (x.plan.targetElement x.description r.target).toOption with
  | none => rfl
  | some target =>
    rcases ReferenceKind.isCopy_type_iff.mp h with copy | copy
    · rw [copy]
      rfl
    · rw [copy]
      rfl

theorem targetElement_of_wire (h : x.wire ws r = .ok ws') :
    ∃ target, x.plan.targetElement x.description r.target = .ok target := by
  obtain ⟨target, found, -⟩ := except_bind_eq_ok.mp h
  exact ⟨target, found⟩

theorem risk_eq_ok {scenario : ElementId} {values : List RiskValueRef}
    (new : x.origin ∈ ws.created.map (·.id)) (h : x.risk ws r scenario values = .ok ws') :
    ∃ owner mitigation, x.auxiliary r .riskOwner = .ok owner ∧
      x.auxiliary r .mitigation = .ok mitigation ∧
      Admitted x.domain ws x.origin (.risk scenario x.domain.id owner mitigation values) ∧
      ws.update x.origin
        (Amendment.risk scenario x.domain.id owner mitigation values).apply = .ok ws' := by
  unfold risk at h
  obtain ⟨⟨⟩, affected, h⟩ := except_bind_eq_ok.mp h
  obtain ⟨⟨⟩, isScenario, h⟩ := except_bind_eq_ok.mp h
  obtain ⟨owner, hasOwner, h⟩ := except_bind_eq_ok.mp h
  obtain ⟨⟨⟩, isPerson, h⟩ := except_bind_eq_ok.mp h
  obtain ⟨mitigation, hasMitigation, h⟩ := except_bind_eq_ok.mp h
  obtain ⟨⟨⟩, isControl, h⟩ := except_bind_eq_ok.mp h
  obtain ⟨⟨⟩, checked, h⟩ := except_bind_eq_ok.mp h
  obtain ⟨t, risky, has⟩ := requireRiskAffected_eq_ok_iff.mp affected
  exact ⟨owner, mitigation, hasOwner, hasMitigation,
    .risk new risky has (requireType_eq_ok_iff.mp isScenario)
      (requireTypeIf_eq_ok_iff.mp isPerson) (requireTypeIf_eq_ok_iff.mp isControl)
      (Domain.checkRiskValues_eq_ok_iff.mp checked), h⟩

theorem implementation_eq_ok {control : ElementId} {role : String}
    {responsible : Option ElementId}
    (h : x.implementation ws r control role = .ok responsible) :
    x.auxiliary r .responsible = .ok responsible ∧
      (∃ t, t.isRiskAffected = true ∧ ws.Has x.origin t) ∧ ws.Has control .control ∧
      ∀ p, responsible = some p → ws.Has p .person := by
  unfold implementation at h
  obtain ⟨⟨⟩, affected, h⟩ := except_bind_eq_ok.mp h
  obtain ⟨⟨⟩, isControl, h⟩ := except_bind_eq_ok.mp h
  obtain ⟨found, named, h⟩ := except_bind_eq_ok.mp h
  obtain ⟨⟨⟩, isPerson, h⟩ := except_bind_eq_ok.mp h
  cases h
  exact ⟨named, requireRiskAffected_eq_ok_iff.mp affected, requireType_eq_ok_iff.mp isControl,
    requireTypeIf_eq_ok_iff.mp isPerson⟩

/-- A reference is realized by its amendment, after all of its checks. -/
theorem wire_cases (new : x.origin ∈ ws.created.map (·.id)) (h : x.wire ws r = .ok ws') :
    (r.kind.type.isCopy = true ∧ ws' = ws) ∨
      ∃ holder a, x.amendment? r = some (holder, a) ∧ Admitted x.domain ws holder a ∧
        ws.update holder a.apply = .ok ws' := by
  unfold wire at h
  obtain ⟨target, found, h⟩ := except_bind_eq_ok.mp h
  unfold amendment?
  rw [found, Except.toOption]
  cases hk : r.kind with
  | copy | copyAlways =>
    simp only [hk] at h
    cases h
    exact .inl ⟨rfl, rfl⟩
  | link linkType attributes =>
    simp only [hk] at h
    obtain ⟨e, hasTarget, h⟩ := except_bind_eq_ok.mp h
    exact .inr ⟨x.origin, .link _, rfl, .link ⟨e, hasTarget, rfl⟩, h⟩
  | linkExternal linkType attributes =>
    simp only [hk] at h
    -- the origin is not looked up here, but it is among the new elements
    obtain ⟨t, has⟩ := has_of_new new
    exact .inr ⟨target, .link _, rfl, .link has, h⟩
  | part =>
    simp only [hk] at h
    obtain ⟨admitted, h⟩ := addPart_eq_ok h
    exact .inr ⟨x.origin, _, rfl, admitted _, h⟩
  | composite =>
    simp only [hk] at h
    obtain ⟨admitted, h⟩ := addPart_eq_ok h
    exact .inr ⟨target, _, rfl, admitted _, h⟩
  | scope =>
    simp only [hk] at h
    obtain ⟨admitted, h⟩ := addMember_eq_ok h
    exact .inr ⟨target, _, rfl, admitted _, h⟩
  | member =>
    simp only [hk] at h
    obtain ⟨admitted, h⟩ := addMember_eq_ok h
    exact .inr ⟨x.origin, _, rfl, admitted _, h⟩
  | risk owner mitigation values =>
    simp only [hk] at h
    obtain ⟨p, c, hasOwner, hasMitigation, admitted, h⟩ := risk_eq_ok new h
    rw [hasOwner, hasMitigation]
    exact .inr ⟨x.origin, _, rfl, admitted, h⟩
  | controlImplementation item description =>
    simp only [hk] at h
    obtain ⟨responsible, checked, h⟩ := except_bind_eq_ok.mp h
    obtain ⟨named, ⟨t, risky, has⟩, isControl, isPerson⟩ := implementation_eq_ok checked
    rw [named]
    exact .inr ⟨x.origin, .control _, rfl, .control new risky has isControl isPerson, h⟩
  | requirementImplementation status statement item =>
    simp only [hk] at h
    obtain ⟨responsible, checked, h⟩ := except_bind_eq_ok.mp h
    obtain ⟨named, ⟨t, risky, has⟩, isControl, isPerson⟩ := implementation_eq_ok checked
    rw [named]
    exact .inr ⟨x.origin, .requirement _, rfl, .requirement new risky has isControl isPerson, h⟩

end Wiring

end TemplateCatalog
