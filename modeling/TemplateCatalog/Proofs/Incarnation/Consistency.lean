import TemplateCatalog.Proofs.Incarnation.InPlace

/-!
# Consistency of stores

A store is consistent if all that elements refer to is stored, belongs to the
unit of the element that refers to it, and has the type that the relation asks
for.

Results:
1. `Workspace.Admitted.consistent`: the checks of an amendment are enough for
   the amended element.
2. `Application.Reached.consistent`: every element of a reached workspace is
   consistent with regard to what the workspace holds.
3. `Store.consistent_of_calls`: no sequence of applications, whatever their
   domains, graphs and plans, leads out of the consistent stores.
-/

namespace TemplateCatalog

/-- Scenario, owner and mitigation are known with the types of their roles. -/
structure Risk.Consistent (known : ElementId → ElementType → Prop) (r : Risk) : Prop where
  scenario : known r.scenario .scenario
  owner : ∀ p, r.owner = some p → known p .person
  mitigation : ∀ c, r.mitigation = some c → known c .control

/-- The relations of an element with regard to what is known of its unit: which elements there
are, and of which types. -/
structure Element.Consistent (known : ElementId → ElementType → Prop) (e : Element) : Prop where
  parts : ∀ p ∈ e.parts, e.elementType ≠ .scope ∧ known p e.elementType
  members : ∀ m ∈ e.members, e.elementType = .scope ∧ ∃ t, known m t
  links : ∀ l ∈ e.links, ∃ t, known l.target t
  risks : ∀ r ∈ e.risks, e.elementType ∈ [.asset, .process, .scope] ∧ r.Consistent known
  controls : ∀ c ∈ e.controlImplementations, e.elementType ∈ [.asset, .process, .scope] ∧
    known c.control .control ∧ ∀ p, c.responsible = some p → known p .person
  requirements : ∀ r ∈ e.requirementImplementations,
    e.elementType ∈ [.asset, .process, .scope] ∧
      known r.control .control ∧ ∀ p, r.responsible = some p → known p .person

/-- Every element is consistent with regard to the stored elements of its unit. -/
def Store.Consistent (s : Store) : Prop :=
  ∀ e ∈ s.elements.rows, e.Consistent (s.Knows e.owner)

theorem ElementType.isRiskAffected_iff {t : ElementType} :
    t.isRiskAffected = true ↔ t ∈ [.asset, .process, .scope] := by
  cases t <;> decide

section

variable {known known' : ElementId → ElementType → Prop}

theorem Risk.Consistent.mono {r : Risk} (h : r.Consistent known)
    (more : ∀ id t, known id t → known' id t) : r.Consistent known' where
  scenario := more _ _ h.scenario
  owner p hp := more _ _ (h.owner p hp)
  mitigation c hc := more _ _ (h.mitigation c hc)

theorem Risk.Consistent.addValues {r : Risk} (h : r.Consistent known) (vs : List RiskValueRef) :
    (r.addValues vs).Consistent known := by
  rw [addValues_rest]
  exact ⟨h.scenario, h.owner, h.mitigation⟩

theorem Element.Consistent.mono {e : Element} (h : e.Consistent known)
    (more : ∀ id t, known id t → known' id t) : e.Consistent known' where
  parts p hp := ⟨(h.parts p hp).1, more _ _ (h.parts p hp).2⟩
  members m hm := ⟨(h.members m hm).1, (h.members m hm).2.imp fun t => more m t⟩
  links l hl := (h.links l hl).imp fun t => more l.target t
  risks r hr := ⟨(h.risks r hr).1, (h.risks r hr).2.mono more⟩
  controls c hc :=
    have ⟨affected, control, responsible⟩ := h.controls c hc
    ⟨affected, more _ _ control, fun p hp => more _ _ (responsible p hp)⟩
  requirements r hr :=
    have ⟨affected, control, responsible⟩ := h.requirements r hr
    ⟨affected, more _ _ control, fun p hp => more _ _ (responsible p hp)⟩

/-- An element without relations is consistent. -/
theorem TemplateItem.toElement_consistent (item : TemplateItem) (id : ElementId) (unit : UnitId)
    (domain : DomainId) : (item.toElement id unit domain).Consistent known :=
  ⟨fun _ => nofun, fun _ => nofun, fun _ => nofun, fun _ => nofun, fun _ => nofun, fun _ => nofun⟩

/-! ## One relation -/

/-- A given owner or mitigation takes the place of the risk's own. -/
theorem Risk.Consistent.assign {r : Risk} (h : r.Consistent known)
    {owner mitigation : Option ElementId} (isPerson : ∀ p, owner = some p → known p .person)
    (isControl : ∀ c, mitigation = some c → known c .control) :
    ({ r with owner := owner.or r.owner, mitigation := mitigation.or r.mitigation }).Consistent
      known := by
  refine ⟨h.scenario, fun p hp => ?_, fun c hc => ?_⟩
  · rcases Option.or_eq_some_iff.mp hp with given | ⟨-, kept⟩
    · exact isPerson p given
    · exact h.owner p kept
  · rcases Option.or_eq_some_iff.mp hc with given | ⟨-, kept⟩
    · exact isControl c given
    · exact h.mitigation c kept

namespace Element.Consistent

variable {e : Element}

theorem addLink (c : e.Consistent known) {l : CustomLink} (target : ∃ t, known l.target t) :
    (e.addLink l).Consistent known := by
  unfold Element.addLink
  split
  · exact c
  · refine { c with links := List.forall_mem_append.mpr ⟨c.links, ?_⟩ }
    exact List.forall_mem_singleton.mpr target

theorem addPart (c : e.Consistent known) {p : ElementId} (notScope : e.elementType ≠ .scope)
    (part : known p e.elementType) : (e.addPart p).Consistent known := by
  unfold Element.addPart
  split
  · exact c
  · refine { c with parts := List.forall_mem_append.mpr ⟨c.parts, ?_⟩ }
    exact List.forall_mem_singleton.mpr ⟨notScope, part⟩

theorem addMember (c : e.Consistent known) {m : ElementId} (isScope : e.elementType = .scope)
    (member : ∃ t, known m t) : (e.addMember m).Consistent known := by
  unfold Element.addMember
  split
  · exact c
  · refine { c with members := List.forall_mem_append.mpr ⟨c.members, ?_⟩ }
    exact List.forall_mem_singleton.mpr ⟨isScope, member⟩

theorem updateRisk (c : e.Consistent known) {scenario : ElementId} {domain : DomainId}
    {f : Risk → Risk} (affected : e.elementType ∈ [.asset, .process, .scope])
    (isScenario : known scenario .scenario)
    (keeps : ∀ r : Risk, r.Consistent known → (f r).Consistent known) :
    (e.updateRisk scenario domain f).Consistent known := by
  rw [Element.updateRisk_rest]
  refine { c with risks := fun r hr => ?_ }
  rcases Element.mem_risks_updateRisk hr with old | ⟨x, rfl, -, old | rfl⟩
  · exact c.risks r old
  · exact ⟨affected, keeps x (c.risks x old).2⟩
  · exact ⟨affected, keeps _ ⟨isScenario, fun _ => nofun, fun _ => nofun⟩⟩

theorem addControlImplementation (c : e.Consistent known) {i : ControlImplementation}
    (affected : e.elementType ∈ [.asset, .process, .scope]) (isControl : known i.control .control)
    (isPerson : ∀ p, i.responsible = some p → known p .person) :
    (e.addControlImplementation i).Consistent known := by
  unfold Element.addControlImplementation
  split
  · exact c
  · refine { c with controls := List.forall_mem_append.mpr ⟨c.controls, ?_⟩ }
    exact List.forall_mem_singleton.mpr ⟨affected, isControl, isPerson⟩

theorem addRequirementImplementation (c : e.Consistent known) {i : RequirementImplementation}
    (affected : e.elementType ∈ [.asset, .process, .scope]) (isControl : known i.control .control)
    (isPerson : ∀ p, i.responsible = some p → known p .person) :
    (e.addRequirementImplementation i).Consistent known := by
  unfold Element.addRequirementImplementation
  split
  · exact c
  · refine { c with requirements := List.forall_mem_append.mpr ⟨c.requirements, ?_⟩ }
    exact List.forall_mem_singleton.mpr ⟨affected, isControl, isPerson⟩

end Element.Consistent

end

/-! ## One amendment -/

namespace Workspace

variable {ws ws' : Workspace} {holder : ElementId} {e : Element}

theorem Tracked.holds_of_has (t : ws.Tracked) {id : ElementId} {type : ElementType}
    (h : ws.Has id type) : ws.Holds id type := by
  obtain ⟨x, found, rfl⟩ := h
  exact t.holds_of_element found

theorem Has.type_eq {type : ElementType} (h : ws.Has holder type)
    (found : ws.element holder = .ok e) : e.elementType = type := by
  obtain ⟨x, found', rfl⟩ := h
  rw [found] at found'
  cases found'
  rfl

/-- The checks of an amendment keep the amended element consistent. -/
theorem Admitted.consistent {domain : Domain} {a : Amendment} (t : ws.Tracked)
    (h : Admitted domain ws holder a) (found : ws.element holder = .ok e)
    (c : e.Consistent ws.Holds) : (a.apply e).Consistent ws.Holds := by
  cases h with
  | link target => exact c.addLink ⟨_, t.holds_of_has target⟩
  | part composed hasHolder hasPart =>
    cases hasHolder.type_eq found
    exact c.addPart (of_decide_eq_true composed) (t.holds_of_has hasPart)
  | member hasHolder hasMember =>
    exact c.addMember (hasHolder.type_eq found) ⟨_, t.holds_of_has hasMember⟩
  | @risk _ _ _ _ values _ affected hasHolder isScenario isPerson isControl _ =>
    cases hasHolder.type_eq found
    refine c.updateRisk (ElementType.isRiskAffected_iff.mp affected) (t.holds_of_has isScenario) ?_
    intro r hr
    have assigned := hr.assign (fun p hp => t.holds_of_has (isPerson p hp))
      (fun m hm => t.holds_of_has (isControl m hm))
    exact assigned.addValues values
  | control _ affected hasHolder isControl isPerson =>
    cases hasHolder.type_eq found
    exact c.addControlImplementation (ElementType.isRiskAffected_iff.mp affected)
      (t.holds_of_has isControl) fun p hp => t.holds_of_has (isPerson p hp)
  | requirement _ affected hasHolder isControl isPerson =>
    cases hasHolder.type_eq found
    exact c.addRequirementImplementation (ElementType.isRiskAffected_iff.mp affected)
      (t.holds_of_has isControl) fun p hp => t.holds_of_has (isPerson p hp)

/-- An element that is found is consistent if the workspace and its store are. -/
theorem consistent_of_element (stored : ws.connection.store.Consistent)
    (c : ∀ x ∈ ws.created ++ ws.modified, x.Consistent ws.Holds)
    (found : ws.element holder = .ok e) : e.Consistent ws.Holds := by
  rcases element_eq_ok found with created | ⟨-, modified | ⟨-, loaded⟩⟩
  · exact c e (List.mem_append_left _ (find?_eq_some created).1)
  · exact c e (List.mem_append_right _ (find?_eq_some modified).1)
  · obtain ⟨he, -, owned⟩ := load_eq_ok loaded
    rw [Store.Consistent] at stored
    exact (stored e he).mono fun id type known => .inr (owned ▸ known)

end Workspace

/-! ## Runs -/

namespace Application

open Workspace

theorem Reached.consistent {a : Application} {ws : Workspace} (h : a.Reached ws)
    (stored : a.connection.store.Consistent) :
    ∀ e ∈ ws.created ++ ws.modified, e.Consistent ws.Holds := by
  induction h with
  | start => exact fun _ => nofun
  | @create ws item id new reached made fresh ih =>
    obtain ⟨rfl, -⟩ := Domain.instantiate_eq_ok made
    intro e he
    have origin : e ∈ ws.created ++ ws.modified ∨
        e = item.toElement id a.plan.unit a.domain.id := by
      rcases List.mem_append.mp he with hc | hm
      · rcases List.mem_append.mp hc with hc | hc
        · exact .inl (List.mem_append_left _ hc)
        · exact .inr (List.mem_singleton.mp hc)
      · exact .inl (List.mem_append_right _ hm)
    rcases origin with old | rfl
    · exact (ih e old).mono fun _ _ holds => holds.create
    · exact item.toElement_consistent id a.plan.unit a.domain.id
  | @amend ws ws' holder m reached admitted updated ih =>
    intro e he
    have tracked := reached.tracked
    have core := Amendment.core_apply m
    have origin : e ∈ ws.created ++ ws.modified ∨
        ∃ x, ws.element holder = .ok x ∧ e = m.apply x := by
      rcases List.mem_append.mp he with hc | hm
      · rcases tracked.mem_created_update updated hc with old | ⟨x, -, found, rfl⟩
        · exact .inl (List.mem_append_left _ old)
        · exact .inr ⟨x, found, rfl⟩
      · rcases tracked.mem_modified_update updated hm with old | ⟨-, x, found, rfl⟩
        · exact .inl (List.mem_append_right _ old)
        · exact .inr ⟨x, found, rfl⟩
    -- consistent with what was held before the step, and no step loses any of that
    have amended : e.Consistent ws.Holds := by
      rcases origin with old | ⟨x, found, rfl⟩
      · exact ih e old
      · rw [← reached.connection_eq.1] at stored
        exact admitted.consistent tracked found (consistent_of_element stored ih found)
    exact amended.mono fun _ _ holds => Holds.update holds core updated

end Application

namespace Store

variable {s s' : Store} {a : Application} {applied : AppliedIncarnation} {ws : Workspace}

theorem Committed.knows (c : Committed s a applied s' ws) {unit : UnitId} {id : ElementId}
    {t : ElementType} (h : s.Knows unit id t) : s'.Knows unit id t := by
  obtain ⟨e, he, hid, owned, ht⟩ := h
  obtain ⟨e', he', grown⟩ := c.grows he
  exact ⟨e', he', grown.id_eq.trans hid, grown.owner_eq.trans owned,
    grown.elementType_eq.trans ht⟩

theorem Committed.knows_of_holds (c : Committed s a applied s' ws) {id : ElementId}
    {t : ElementType} (h : ws.Holds id t) : s'.Knows ws.unit id t := by
  rcases h with ⟨e, he, hid, ht⟩ | known
  · refine ⟨e, ?_, hid, c.reached.tracked.created_owner e he, ht⟩
    rw [c.rows]
    exact List.mem_append_right _ he
  · rw [c.reached.connection_eq.1, c.connection] at known
    exact c.knows known

theorem Committed.consistent (c : Committed s a applied s' ws) (h : s.Consistent) :
    s'.Consistent := by
  have stored : a.connection.store.Consistent := c.connection ▸ h
  have tracked := c.reached.tracked
  have written : ∀ e ∈ ws.created ++ ws.modified, e.owner = ws.unit →
      e.Consistent (s'.Knows e.owner) := by
    intro e he owned
    rw [owned]
    exact (c.reached.consistent stored e he).mono fun _ _ => c.knows_of_holds
  intro e he
  rcases c.mem_rows he with created | modified | untouched
  · exact written e (List.mem_append_left _ created) (tracked.created_owner e created)
  · obtain ⟨x, -, owned, grown⟩ := tracked.modified_origin e modified
    exact written e (List.mem_append_right _ modified) (grown.owner_eq.trans owned)
  · exact (h e untouched).mono fun _ _ => c.knows

/-- The arguments of one application. -/
structure Call where
  graph : TemplateGraph
  domain : Domain
  plan : IncarnationPlan

/-- The store after a call, whether it succeeds or fails. -/
def after (s : Store) (c : Call) : Store := (s.applyInPlace c.graph c.domain c.plan).2

theorem Consistent.after (h : s.Consistent) (c : Call) : (s.after c).Consistent := by
  unfold Store.after
  cases answer : s.applyInPlace c.graph c.domain c.plan with
  | mk result s' =>
    cases result with
    | error e =>
      cases (applyInPlace_error_iff.mp answer).2
      exact h
    | ok applied =>
      obtain ⟨ws, committed⟩ := applyInPlace_ok answer
      exact committed.consistent h

/-! ## Whole runs -/

/-- A store with a unit that holds one element. -/
def ofElement (unit : OrgUnit) (e : Element) : Store where
  units := .ofList [unit]
  elements := .ofList [e]

/-- Makes an element from an item and realizes the given references of it. -/
def Call.create (domain : Domain) (unit : UnitId) (item : TemplateItem) (id : ElementId)
    (references : List ResolvedReference) : Call where
  graph := { items := [item], distinct_ids := List.nodup_singleton _ }
  domain
  plan := {
    unit
    domain := domain.id
    lookup := .forReferencedItems
    descriptions := [
      { item := item.id, requested := true, disposition := .create id false, references }]
    creationOrder := [0] }

/-- Applications in turn lead from consistent stores to consistent stores. -/
theorem consistent_of_calls (s : Store) (h : s.Consistent) (calls : List Call) :
    (calls.foldl after s).Consistent := by
  induction calls generalizing s with
  | nil => exact h
  | cons c rest ih => exact ih (s.after c) (h.after c)

/-- A new process joins the stored scope, which is then a consistent scope with a member. -/
theorem consistent_of_joined_scope :
    let domain : Domain := .ofTemplate ⟨⟨1⟩⟩ { id := ⟨⟨0⟩⟩, name := "template", version := {} }
    let scope : TemplateItem :=
      { id := ⟨⟨10⟩⟩, nspace := domain.nspace, name := "scope", elementType := .scope }
    let process : TemplateItem :=
      { id := ⟨⟨11⟩⟩, nspace := domain.nspace, name := "process", elementType := .process }
    let s := ofElement ⟨⟨⟨2⟩⟩, "unit", [domain.id]⟩ (scope.toElement ⟨⟨3⟩⟩ ⟨⟨2⟩⟩ domain.id)
    let calls := [Call.create domain ⟨⟨2⟩⟩ process ⟨⟨4⟩⟩
      [{ reference := ⟨⟨12⟩⟩, targetItem := scope.id, kind := .scope, target := .existing ⟨⟨3⟩⟩ }]]
    (calls.foldl after s).elements.rows.map (fun e => (e.id, e.members)) =
        [(⟨⟨3⟩⟩, [⟨⟨4⟩⟩]), (⟨⟨4⟩⟩, [])] ∧
      (calls.foldl after s).Consistent := by
  intro domain scope process s calls
  refine ⟨by decide, consistent_of_calls s ?_ calls⟩
  intro e he
  cases List.mem_singleton.mp he
  exact scope.toElement_consistent ⟨⟨3⟩⟩ ⟨⟨2⟩⟩ domain.id

end Store

end TemplateCatalog
