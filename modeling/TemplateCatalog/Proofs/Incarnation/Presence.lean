import TemplateCatalog.Proofs.Incarnation.Agreement
import TemplateCatalog.Proofs.Incarnation.Consistency

/-!
# Which elements of a report are there

The report of an application lists one element for every description. A created
element is there by construction. A reused one is looked up only where the
reference of a created element needs it (`Application.LooksUp`): as the target
of anything but a copy, or in a role of a risk or an implementation. A reused
element that nobody looks up is reported unseen.

Results:
1. `Wiring.holds_of_looksUp`: what a reference looks up is a new or a stored
   element of the unit.
2. `Application.wireAll_holds`: so is, after wiring, all that was looked up.
3. `Store.Committed.owns_iff`: the unit has what it had and what is created.
4. `Store.applyInPlace_elements`: which reported elements are there.
5. `Store.unseen_elements_reported`: some are not.
-/

namespace TemplateCatalog

/-! ## Look-ups -/

/-- The roles in which a kind of reference needs further elements. -/
def ReferenceKind.roles : ReferenceKind → List AuxiliaryRole
  | .risk .. => [.riskOwner, .mitigation]
  | .controlImplementation .. | .requirementImplementation .. => [.responsible]
  | _ => []

/-- To realize the reference is to look up the element: the target of anything but a copy, or an
auxiliary target in a role of the kind. -/
def Wiring.LooksUp (x : Wiring) (r : ResolvedReference) (id : ElementId) : Prop :=
  (r.kind.type.isCopy = false ∧ x.plan.targetElement x.description r.target = .ok id) ∨
    ∃ role ∈ r.kind.roles, x.auxiliary r role = .ok (some id)

/-- A reference of a creating description looks up the element. -/
def Application.LooksUp (a : Application) (id : ElementId) : Prop :=
  ∃ d ∈ a.plan.descriptions, d.disposition.isCreate = true ∧
    ∃ r ∈ d.references, Wiring.LooksUp ⟨a.domain, a.plan, d⟩ r id

/-- The elements that an amendment refers to. -/
def Amendment.mentions : Amendment → List ElementId
  | .link l => [l.target]
  | .part p => [p]
  | .member m => [m]
  | .risk scenario _ owner mitigation _ => scenario :: (owner.toList ++ mitigation.toList)
  | .control c => c.control :: c.responsible.toList
  | .requirement r => r.control :: r.responsible.toList

namespace Wiring

variable {x : Wiring} {r : ResolvedReference} {id holder : ElementId} {m : Amendment}

/-- What a reference looks up is the element that it amends, or the amendment refers to it. -/
theorem mem_mentions_of_looksUp (stated : x.amendment? r = some (holder, m))
    (looked : x.LooksUp r id) : id = holder ∨ id ∈ m.mentions := by
  obtain ⟨target, found, stated⟩ := Option.bind_eq_some_iff.mp stated
  have main (h : x.plan.targetElement x.description r.target = .ok id) : id = target := by
    rw [h] at found
    exact Option.some.inj found
  unfold LooksUp at looked
  cases hk : r.kind with
  | copy | copyAlways => simp only [hk] at stated; cases stated
  | link | linkExternal | part | composite | scope | member =>
    simp only [hk, ReferenceKind.roles, List.not_mem_nil, false_and, exists_false, or_false]
      at stated looked
    obtain ⟨rfl, rfl⟩ := Prod.mk.inj (Option.some.inj stated)
    simp [Amendment.mentions, main looked.2]
  | risk owner mitigation values =>
    simp only [hk] at stated looked
    obtain ⟨p, hasOwner, stated⟩ := Option.bind_eq_some_iff.mp stated
    obtain ⟨c, hasMitigation, stated⟩ := Option.bind_eq_some_iff.mp stated
    obtain ⟨rfl, rfl⟩ := Prod.mk.inj (Option.some.inj stated)
    refine .inr ?_
    rcases looked with ⟨-, h⟩ | ⟨role, hrole, h⟩
    · exact main h ▸ List.mem_cons_self
    · simp only [ReferenceKind.roles, List.mem_cons, List.not_mem_nil, or_false] at hrole
      rcases hrole with rfl | rfl
      · rw [h] at hasOwner
        cases hasOwner
        simp [Amendment.mentions]
      · rw [h] at hasMitigation
        cases hasMitigation
        simp [Amendment.mentions]
  | controlImplementation | requirementImplementation =>
    simp only [hk] at stated looked
    obtain ⟨p, hasResponsible, stated⟩ := Option.bind_eq_some_iff.mp stated
    obtain ⟨rfl, rfl⟩ := Prod.mk.inj (Option.some.inj stated)
    refine .inr ?_
    rcases looked with ⟨-, h⟩ | ⟨role, hrole, h⟩
    · exact main h ▸ List.mem_cons_self
    · rw [List.mem_singleton.mp hrole] at h
      rw [h] at hasResponsible
      cases hasResponsible
      simp [Amendment.mentions]

theorem not_looksUp_of_isCopy (h : r.kind.type.isCopy = true) : ¬ x.LooksUp r id := by
  rintro (⟨other, -⟩ | ⟨role, hrole, -⟩)
  · rw [h] at other
    cases other
  · rcases ReferenceKind.isCopy_type_iff.mp h with copy | copy
    · rw [copy] at hrole
      cases hrole
    · rw [copy] at hrole
      cases hrole

end Wiring

namespace Workspace

variable {ws ws' : Workspace} {id holder : ElementId} {t : ElementType}

/-- The checks of an amendment find all that it refers to. -/
theorem Admitted.holds {domain : Domain} {m : Amendment} (tracked : ws.Tracked)
    (h : Admitted domain ws holder m) (hid : id ∈ m.mentions) : ∃ t, ws.Holds id t := by
  have held {i : ElementId} {t : ElementType} (has : ws.Has i t) : ∃ t, ws.Holds i t :=
    ⟨t, tracked.holds_of_has has⟩
  cases h with
  | link target => exact List.mem_singleton.mp hid ▸ held target
  | part _ _ part => exact List.mem_singleton.mp hid ▸ held part
  | member _ member => exact List.mem_singleton.mp hid ▸ held member
  | risk _ _ _ isScenario isPerson isControl _ =>
    simp only [Amendment.mentions, List.mem_cons, List.mem_append, Option.mem_toList] at hid
    rcases hid with rfl | owner | mitigation
    · exact held isScenario
    · exact held (isPerson id owner)
    · exact held (isControl id mitigation)
  | control _ _ _ isControl isPerson | requirement _ _ _ isControl isPerson =>
    simp only [Amendment.mentions, List.mem_cons, Option.mem_toList] at hid
    rcases hid with rfl | responsible
    · exact held isControl
    · exact held (isPerson id responsible)

end Workspace

/-- What a reference looks up is a new or a stored element of the unit. -/
theorem Wiring.holds_of_looksUp {x : Wiring} {ws ws' : Workspace} {r : ResolvedReference}
    {id : ElementId} (tracked : ws.Tracked) (new : x.origin ∈ ws.created.map (·.id))
    (h : x.wire ws r = .ok ws') (looked : x.LooksUp r id) : ∃ t, ws.Holds id t := by
  rcases wire_cases new h with ⟨copy, -⟩ | ⟨holder, m, stated, admitted, updated⟩
  · exact absurd looked (not_looksUp_of_isCopy copy)
  · rcases mem_mentions_of_looksUp stated looked with rfl | mentioned
    · obtain ⟨e, found, -⟩ := Workspace.update_cases updated
      exact ⟨e.elementType, tracked.holds_of_element found⟩
    · exact admitted.holds tracked mentioned

namespace Application

open Workspace

variable {a : Application} {ws ws' : Workspace} {id : ElementId} {t : ElementType}

/-- To realize a reference leads to a reached workspace that holds no less. -/
theorem Reached.wire {x : Wiring} {r : ResolvedReference} (domain : x.domain = a.domain)
    (reached : a.Reached ws) (new : x.origin ∈ ws.created.map (·.id))
    (h : x.wire ws r = .ok ws') :
    a.Reached ws' ∧ ws'.created.map Element.core = ws.created.map Element.core ∧
      ∀ id t, ws.Holds id t → ws'.Holds id t := by
  rcases Wiring.wire_cases new h with ⟨-, rfl⟩ | ⟨holder, m, -, admitted, updated⟩
  · exact ⟨reached, rfl, fun _ _ holds => holds⟩
  · rw [domain] at admitted
    have core := Amendment.core_apply m
    exact ⟨reached.amend admitted updated, update_created_cores core updated,
      fun _ _ holds => Holds.update holds core updated⟩

theorem wireReferences_holds {x : Wiring} {rs : List ResolvedReference}
    (domain : x.domain = a.domain) (reached : a.Reached ws)
    (new : x.origin ∈ ws.created.map (·.id)) (h : wireReferences x ws rs = .ok ws') :
    (∀ id t, ws.Holds id t → ws'.Holds id t) ∧
      ∀ r ∈ rs, ∀ id, x.LooksUp r id → ∃ t, ws'.Holds id t := by
  induction rs generalizing ws with
  | nil =>
    cases h
    exact ⟨fun _ _ holds => holds, fun _ => nofun⟩
  | cons r rest ih =>
    obtain ⟨mid, wired, behind⟩ := except_bind_eq_ok.mp h
    obtain ⟨reached', cores, kept⟩ := reached.wire domain new wired
    have new' : x.origin ∈ mid.created.map (·.id) := by rwa [ids_of_cores cores]
    obtain ⟨keptBehind, held⟩ := ih reached' new' behind
    refine ⟨fun id t holds => keptBehind id t (kept id t holds), ?_⟩
    refine List.forall_mem_cons.mpr ⟨fun id looked => ?_, held⟩
    obtain ⟨t, holds⟩ := Wiring.holds_of_looksUp reached.tracked new wired looked
    exact ⟨t, keptBehind id t (kept id t holds)⟩

/-- After wiring, all that was looked up is a new or a stored element of the unit. -/
theorem wireAll_holds {ds : List IncarnationDescription} (reached : a.Reached ws)
    (new : ∀ d ∈ ds, d.disposition.isCreate = true →
      d.disposition.element ∈ ws.created.map (·.id))
    (h : a.wireAll ws ds = .ok ws') :
    (∀ id t, ws.Holds id t → ws'.Holds id t) ∧
      ∀ d ∈ ds, d.disposition.isCreate = true → ∀ r ∈ d.references, ∀ id,
        Wiring.LooksUp ⟨a.domain, a.plan, d⟩ r id → ∃ t, ws'.Holds id t := by
  induction ds generalizing ws with
  | nil =>
    cases h
    exact ⟨fun _ _ holds => holds, fun _ => nofun⟩
  | cons d rest ih =>
    obtain ⟨newHead, newRest⟩ := List.forall_mem_cons.mp new
    rw [List.forall_mem_cons]
    unfold wireAll at h
    split at h
    · next creates =>
      obtain ⟨mid, wired, h⟩ := except_bind_eq_ok.mp h
      have new' := newHead creates
      obtain ⟨reached', cores⟩ :=
        wireReferences_reached (x := ⟨a.domain, a.plan, d⟩) rfl reached new' wired
      obtain ⟨kept, held⟩ :=
        wireReferences_holds (x := ⟨a.domain, a.plan, d⟩) rfl reached new' wired
      rw [← ids_of_cores cores] at newRest
      obtain ⟨keptBehind, heldBehind⟩ := ih reached' newRest h
      refine ⟨fun id t holds => keptBehind id t (kept id t holds), fun _ r hr id looked => ?_,
        heldBehind⟩
      obtain ⟨t, holds⟩ := held r hr id looked
      exact ⟨t, keptBehind id t holds⟩
    · next reuses =>
      obtain ⟨kept, held⟩ := ih reached newRest h
      exact ⟨kept, fun creates => absurd creates reuses, held⟩

end Application

namespace Store

variable {s s' : Store} {a : Application} {applied : AppliedIncarnation} {ws : Workspace}
  {id : ElementId}

/-! ## What the unit has -/

theorem Knows.owns {unit : UnitId} {t : ElementType} (h : s.Knows unit id t) : s.Owns unit id := by
  obtain ⟨e, he, hid, owned, -⟩ := h
  exact ⟨e, he, hid, owned⟩

/-- After an application the unit has the elements that it had and those that are created. -/
theorem Committed.owns_iff (c : Committed s a applied s' ws) :
    s'.Owns a.plan.unit id ↔ id ∈ applied.created ∨ s.Owns a.plan.unit id := by
  rw [c.created]
  constructor
  · rintro ⟨e, he, rfl, owned⟩
    rcases c.mem_rows he with created | modified | stored
    · exact .inl (List.mem_map_of_mem created)
    · obtain ⟨x, hx, owned', grown⟩ := c.reached.modified_origin c.connection modified
      exact .inr ⟨x, hx, grown.id_eq.symm, owned'⟩
    · exact .inr ⟨e, stored, rfl, owned⟩
  · rintro (created | ⟨e, he, hid, owned⟩)
    · obtain ⟨e, he, rfl⟩ := List.mem_map.mp created
      refine ⟨e, ?_, rfl, ?_⟩
      · rw [c.rows]
        exact List.mem_append_right _ he
      · rw [c.reached.tracked.created_owner e he, c.reached.connection_eq.2]
    · obtain ⟨e', he', grown⟩ := c.grows he
      exact ⟨e', he', grown.id_eq.trans hid, grown.owner_eq.trans owned⟩

theorem Committed.mem_created (c : Committed s a applied s' ws) {d : IncarnationDescription}
    (hd : d ∈ a.plan.descriptions) (creates : d.disposition.isCreate = true) :
    d.disposition.element ∈ applied.created := by
  rw [c.created, Application.ids_of_creates c.creates]
  refine List.mem_map_of_mem (List.mem_filter.mpr ⟨?_, creates⟩)
  exact IncarnationPlan.mem_inCreationOrder.mpr hd

theorem Committed.owns_of_looksUp (c : Committed s a applied s' ws) (h : a.LooksUp id) :
    s'.Owns a.plan.unit id := by
  obtain ⟨d, hd, creates, r, hr, looked⟩ := h
  obtain ⟨start, instantiates, wired⟩ := c.wired
  obtain ⟨-, held⟩ := Application.wireAll_holds instantiates.reached instantiates.there wired
  have ordered := IncarnationPlan.mem_inCreationOrder.mpr hd
  obtain ⟨t, holds⟩ := held d ordered creates r hr id looked
  rw [← c.reached.connection_eq.2]
  exact (c.knows_of_holds holds).owns

/-! ## Reported elements -/

theorem elements_of_run (h : a.run = .ok (applied, s')) :
    applied.elements = a.plan.descriptions.map (·.disposition.element) := by
  obtain ⟨batch, -, h⟩ := except_bind_eq_ok.mp h
  split at h
  · cases h
  · cases h
    rfl

/-- The report has the element of every description in the order of the plan. The elements of
creating descriptions are there, and so is all that is looked up. Any other element is there exactly
if the unit had it before, as is the case for all that a plan was resolved to reuse. -/
theorem applyInPlace_elements (s s' : Store) (graph : TemplateGraph) (domain : Domain)
    (plan : IncarnationPlan) (applied : AppliedIncarnation)
    (h : s.applyInPlace graph domain plan = (.ok applied, s')) :
    applied.elements = plan.descriptions.map (·.disposition.element) ∧
      (∀ d ∈ plan.descriptions, d.disposition.isCreate = true →
        s'.Owns plan.unit d.disposition.element) ∧
      (∀ id, Application.LooksUp ⟨s.connect, graph, domain, plan⟩ id → s'.Owns plan.unit id) ∧
      (∀ id, s'.Owns plan.unit id ↔ id ∈ applied.created ∨ s.Owns plan.unit id) ∧
      ∀ (before : Store) (graph' : TemplateGraph) (fresh : Nat → ElementId)
        (request : IncarnationRequest) (options : ResolveOptions),
        resolve graph' before.connect fresh request options = .ok plan →
        (∀ id, before.Owns plan.unit id → s.Owns plan.unit id) →
        ∀ id ∈ applied.elements, s'.Owns plan.unit id := by
  obtain ⟨ws, c⟩ := applyInPlace_ok h
  have listed := elements_of_run (applyInPlace_ok_iff.mp h)
  have created : ∀ d ∈ plan.descriptions, d.disposition.isCreate = true →
      s'.Owns plan.unit d.disposition.element :=
    fun d hd creates => c.owns_iff.mpr (.inl (c.mem_created hd creates))
  refine ⟨listed, created, fun id looked => c.owns_of_looksUp looked, fun id => c.owns_iff, ?_⟩
  intro before graph' fresh request options resolved kept id hid
  rw [listed] at hid
  obtain ⟨d, hd, rfl⟩ := List.mem_map.mp hid
  cases disposition : d.disposition with
  | create element isGuarded =>
    rw [← disposition]
    exact created d hd (by rw [disposition]; rfl)
  | reuse element =>
    have reused := (resolve_backed resolved).reused d hd element disposition
    exact c.owns_iff.mpr (.inr (kept element reused))

/-- A new asset links to a reused one, which is looked up for the link. -/
theorem applyInPlace_elements_of_linked_asset :
    let domain : Domain := .ofTemplate ⟨⟨1⟩⟩ { id := ⟨⟨0⟩⟩, name := "template", version := {} }
    let item (n : Nat) : TemplateItem :=
      { id := ⟨⟨n⟩⟩, nspace := domain.nspace, name := "item", elementType := .asset }
    let s := ofElement ⟨⟨⟨2⟩⟩, "unit", [domain.id]⟩ ((item 10).toElement ⟨⟨3⟩⟩ ⟨⟨2⟩⟩ domain.id)
    let graph : TemplateGraph := ⟨[item 10, item 11], by decide⟩
    let plan : IncarnationPlan := {
      unit := ⟨⟨2⟩⟩
      domain := domain.id
      lookup := .always
      descriptions := [
        { item := ⟨⟨11⟩⟩
          requested := true
          disposition := .create ⟨⟨4⟩⟩ false
          references := [⟨⟨⟨20⟩⟩, ⟨⟨10⟩⟩, .plainLink "uses", .planned 1, []⟩] },
        { item := ⟨⟨10⟩⟩, requested := false, disposition := .reuse ⟨⟨3⟩⟩ }]
      creationOrder := [1, 0] }
    let applied : AppliedIncarnation :=
      { elements := [⟨⟨4⟩⟩, ⟨⟨3⟩⟩], created := [⟨⟨4⟩⟩], modified := [] }
    let s' := (s.applyInPlace graph domain plan).2
    s.applyInPlace graph domain plan = (.ok applied, s') ∧
      Application.LooksUp ⟨s.connect, graph, domain, plan⟩ ⟨⟨3⟩⟩ ∧
      s'.Owns ⟨⟨2⟩⟩ ⟨⟨4⟩⟩ ∧ s'.Owns ⟨⟨2⟩⟩ ⟨⟨3⟩⟩ := by
  intro domain item s graph plan applied s'
  have succeeded : s.applyInPlace graph domain plan = (.ok applied, s') := rfl
  obtain ⟨-, created, looks, -, -⟩ :=
    applyInPlace_elements s s' graph domain plan applied succeeded
  have looked : Application.LooksUp ⟨s.connect, graph, domain, plan⟩ ⟨⟨3⟩⟩ :=
    ⟨_, List.mem_cons_self, rfl, _, List.mem_cons_self, .inl ⟨rfl, rfl⟩⟩
  exact ⟨succeeded, looked, created _ List.mem_cons_self rfl, looks ⟨⟨3⟩⟩ looked⟩

/-- A plan that reuses an element of another unit and one that is not stored at all, and that makes
no reference to them, is applied, and both elements are reported. -/
theorem unseen_elements_reported :
    let domain : Domain := .ofTemplate ⟨⟨1⟩⟩ { id := ⟨⟨0⟩⟩, name := "template", version := {} }
    let item (n : Nat) : TemplateItem :=
      { id := ⟨⟨n⟩⟩, nspace := domain.nspace, name := "item", elementType := .asset }
    let s : Store := {
      units := .ofList [⟨⟨⟨2⟩⟩, "unit", [domain.id]⟩, ⟨⟨⟨5⟩⟩, "other unit", [domain.id]⟩]
      elements := .ofList [(item 10).toElement ⟨⟨3⟩⟩ ⟨⟨5⟩⟩ domain.id] }
    let graph : TemplateGraph := ⟨[item 10, item 11], by decide⟩
    let plan : IncarnationPlan := {
      unit := ⟨⟨2⟩⟩
      domain := domain.id
      lookup := .always
      descriptions := [
        { item := ⟨⟨10⟩⟩, requested := true, disposition := .reuse ⟨⟨3⟩⟩ },
        { item := ⟨⟨11⟩⟩, requested := true, disposition := .reuse ⟨⟨9⟩⟩ }]
      creationOrder := [0, 1] }
    s.applyInPlace graph domain plan =
        (.ok { elements := [⟨⟨3⟩⟩, ⟨⟨9⟩⟩], created := [], modified := [] }, s) ∧
      (s.element? ⟨⟨3⟩⟩).map (·.owner) = some ⟨⟨5⟩⟩ ∧ s.element? ⟨⟨9⟩⟩ = none ∧
      ¬ s.Owns plan.unit ⟨⟨3⟩⟩ ∧ ¬ s.Owns plan.unit ⟨⟨9⟩⟩ := by
  intro domain item s graph plan
  refine ⟨rfl, by decide, by decide, ?_, ?_⟩
  · rintro ⟨e, he, hid, owned⟩
    cases List.mem_singleton.mp he
    exact absurd owned (by decide)
  · rintro ⟨e, he, hid, -⟩
    cases List.mem_singleton.mp he
    exact absurd hid (by decide)

end Store

end TemplateCatalog
