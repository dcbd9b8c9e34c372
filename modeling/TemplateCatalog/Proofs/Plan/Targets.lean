import TemplateCatalog.Proofs.Plan.Resolution

/-!
# Where references lead

A resolved reference names a main item and may name auxiliary ones, and each of
them is led to somewhere. An item that the plan describes is led to by position.
Any other item is led to by the first element of the unit that stands for it, if
the policy looks for one and there is one. What is left is unresolved.

The positions are those of the planned items, and merging keeps them, since it
drops references and no descriptions.

Results:
1. `Survey.target_eq_ok`, `Survey.Describes.reference_origin`: what the targets of a
   description come from.
2. `planned_of_plansAlong`: what the mode plans along is planned.
3. `settled_target`: every target stands for the item that is named.
4. `resolve_targets`: so do those of every plan that is resolved. In closure mode
   all of them are planned, and only broken references make a plan incomplete.
-/

namespace TemplateCatalog

/-! ## Named items -/

/-- The items that a reference names, as far as they are not broken, with where they lead. -/
def ResolvedReference.leads (x : ResolvedReference) : List (ItemId × ReferenceTarget) :=
  (x.targetItem, x.target) :: x.auxiliary.map fun a => (a.item, a.target)

theorem IncarnationDescription.mem_targets {d : IncarnationDescription} {t : ReferenceTarget} :
    t ∈ d.targets ↔ ∃ x ∈ d.references, ∃ named ∈ x.leads, named.2 = t := by
  have told (x : ResolvedReference) : x.targets = x.leads.map (·.2) := by
    rw [ResolvedReference.leads, List.map_cons, List.map_map]
    rfl
  simp only [targets, List.mem_flatMap, told, List.mem_map]

/-- A copy names nothing but what is copied along. -/
theorem TailoringReference.namedItems_of_isCopy {r : TailoringReference}
    (copy : r.type.isCopy = true) : r.namedItems = [r.target] := by
  rcases ReferenceKind.isCopy_type_iff.mp copy with kind | kind
  all_goals
    rw [namedItems, kind]
    rfl

theorem IncarnationPlan.mem_unresolved {plan : IncarnationPlan} {id : ItemId} :
    id ∈ plan.unresolved ↔ ∃ d ∈ plan.descriptions, .unresolved id ∈ d.targets := by
  have told {t : ReferenceTarget} : t.unresolved? = some id ↔ t = .unresolved id := by
    cases t with
    | unresolved other => simp [ReferenceTarget.unresolved?]
    | planned | existing => simp [ReferenceTarget.unresolved?]
  simp only [unresolved, mem_sortIds, List.mem_filterMap, List.mem_flatMap, told, exists_eq_right]

namespace Survey

variable {v : Survey} {p : ItemId × Bool} {d : IncarnationDescription} {origin : ItemId}

/-- The incarnation to which references to an item lead, if the item is not planned. -/
def incarnation? (v : Survey) (item : TemplateItem) : Option ElementId :=
  if v.walk.options.lookup.appliesTo false then v.existing? item else none

theorem target_eq_ok {named : ItemId} {reference : ReferenceId} {t : ReferenceTarget}
    (h : v.target origin reference named = .ok t) :
    ∃ item, v.walk.item? named = some item ∧
      ((∃ n, v.planned.position? named = some n ∧ t = .planned n) ∨
        (v.planned.position? named = none ∧
          t = (v.incarnation? item).elim (.unresolved named) .existing)) := by
  unfold target at h
  cases got : v.walk.graph.get? named with
  | none =>
    rw [got] at h
    cases h
  | some item =>
    simp only [got] at h
    split at h
    · cases h
    · next inNamespace =>
      have found : v.walk.item? named = some item :=
        TemplateGraph.getIn?_eq_some_iff.mpr ⟨got, Decidable.not_not.mp inNamespace⟩
      refine ⟨item, found, ?_⟩
      cases position : v.planned.position? named with
      | some n =>
        simp only [position] at h
        cases h
        exact .inl ⟨n, rfl, rfl⟩
      | none =>
        simp only [position] at h
        refine .inr ⟨rfl, ?_⟩
        unfold incarnation?
        split at h
        · next applies =>
          cases h
          rw [if_pos applies]
        · next skips =>
          cases h
          rw [if_neg skips]
          rfl

theorem resolve?_eq_some {r : TailoringReference} {x : ResolvedReference}
    (h : v.resolve? origin r = some x) :
    x.kind = r.kind ∧ ∀ named ∈ x.leads,
      named.1 ∈ r.namedItems ∧ v.target origin r.id named.1 = .ok named.2 := by
  obtain ⟨main, hmain, rfl⟩ := Option.map_eq_some_iff.mp h
  refine ⟨rfl, List.forall_mem_cons.mpr
    ⟨⟨List.mem_cons_self, except_toOption_eq_some.mp hmain⟩, ?_⟩⟩
  intro named auxiliary
  obtain ⟨a, ha, rfl⟩ := List.mem_map.mp auxiliary
  obtain ⟨⟨role, item⟩, hitem, given⟩ := List.mem_filterMap.mp ha
  obtain ⟨target, htarget, rfl⟩ := Option.map_eq_some_iff.mp given
  exact ⟨List.mem_cons_of_mem _ (List.mem_map_of_mem hitem), except_toOption_eq_some.mp htarget⟩

/-- Every reference of a description is a followed one, and leads to what that one names. -/
theorem Describes.reference_origin (h : v.Describes p d) {x : ResolvedReference}
    (hx : x ∈ d.references) :
    ∃ item, v.walk.item? d.item = some item ∧ ∃ r ∈ v.walk.followed item, x.kind = r.kind ∧
      ∀ named ∈ x.leads,
        named.1 ∈ r.namedItems ∧ v.target item.id r.id named.1 = .ok named.2 := by
  have key := h.key_eq
  obtain ⟨item, fresh, found, thins⟩ := h
  cases key
  obtain ⟨r, hr, given⟩ := List.mem_filterMap.mp (thins.references.subset hx)
  exact ⟨item, found, r, hr, resolve?_eq_some given⟩

end Survey

/-! ## Planned targets -/

/-- The mode has the items planned that references of a type name. -/
def ResolveOptions.PlansAlong (o : ResolveOptions) (t : ReferenceType) : Prop :=
  o.mode = .closure ∨ t.isCopy = true ∨ t.isIntegrityRequired = true

theorem ResolveOptions.PlansAlong.follows {o : ResolveOptions} {r : TailoringReference}
    {id : ItemId} (h : o.PlansAlong r.type) (admitted : o.filter.admits r.type = true)
    (named : id ∈ r.namedItems) : o.Follows r id := by
  refine ⟨admitted, ?_⟩
  cases mode : o.mode with
  | closure => exact named
  | manual =>
    rcases h with closure | copy | required
    · cases mode.symm.trans closure
    · rw [TailoringReference.namedItems_of_isCopy copy, List.mem_singleton] at named
      exact .inl ⟨copy, named⟩
    · exact .inr ⟨required, named⟩

section

variable {graph : TemplateGraph} {s : Store} {fresh : Nat → ElementId}
  {request : IncarnationRequest} {options : ResolveOptions} {reused : List ItemId}

/-- What a reference that is planned along names is planned. -/
theorem planned_of_plansAlong {id t : ItemId} {item : TemplateItem} {r : TailoringReference}
    (along : options.PlansAlong r.type)
    (planned : id ∈ ((request.walk graph options reused).plannedItems request.items).map (·.1))
    (found : (request.walk graph options reused).item? id = some item)
    (hr : r ∈ (request.walk graph options reused).followed item) (named : t ∈ r.namedItems)
    (exists_target : ((request.walk graph options reused).item? t).isSome = true) :
    t ∈ ((request.walk graph options reused).plannedItems request.items).map (·.1) := by
  obtain ⟨kept, href, admitted⟩ := Walk.mem_followed.mp hr
  have led : t ∈ (request.walk graph options reused).copies id ++
      (request.walk graph options reused).expansions id :=
    Walk.mem_copies_append_expansions.mpr
      ⟨item, found, kept, r, href, along.follows admitted named⟩
  exact (Walk.plannedItems_settles request.items).2 id planned t led exists_target

end

/-! ## Targets that are right -/

/-- The first element of the unit in the domain that the policy accepts for an item, unless it
never looks for one. -/
def IncarnationRequest.firstIncarnation? (request : IncarnationRequest) (s : Store)
    (p : LookupPolicy) (item : TemplateItem) : Option ElementId :=
  if p = .never then none
  else ((s.elementsOf request.unit request.domain).find? fun e => p.Accepts item e).map (·.id)

theorem IncarnationRequest.firstIncarnation?_eq_some {request : IncarnationRequest} {s : Store}
    {p : LookupPolicy} {item : TemplateItem} {id : ElementId}
    (h : request.firstIncarnation? s p item = some id) :
    ∃ e ∈ s.elementsOf request.unit request.domain, e.id = id ∧ p.Accepts item e := by
  unfold firstIncarnation? at h
  split at h
  · cases h
  · rw [← existingIncarnation?_eq] at h
    exact existingIncarnation?_eq_some h

/-- The target stands for an item: its position if the plan describes the item, else the element
that comes first, else the item itself. -/
structure ReferenceTarget.StandsFor (t : ReferenceTarget) (id : ItemId) (plan : IncarnationPlan)
    (first : Option ElementId) : Prop where
  planned : ∀ n, t = .planned n ↔ (plan.descriptions[n]?).map (·.item) = some id
  existing : ∀ e, t = .existing e ↔ id ∉ plan.descriptions.map (·.item) ∧ first = some e
  unresolved : ∀ i, t = .unresolved i ↔
    i = id ∧ id ∉ plan.descriptions.map (·.item) ∧ first = none

namespace ReferenceTarget.StandsFor

variable {id : ItemId} {plan : IncarnationPlan} {first : Option ElementId}

theorem of_described (nodup : (plan.descriptions.map (·.item)).Nodup) {n : Nat}
    (described : (plan.descriptions.map (·.item))[n]? = some id) :
    (ReferenceTarget.planned n).StandsFor id plan first := by
  have listed : id ∈ plan.descriptions.map (·.item) := List.mem_of_getElem? described
  refine ⟨?_, ?_, ?_⟩
  · intro m
    have inside : n < (plan.descriptions.map (·.item)).length :=
      (List.getElem?_eq_some_iff.mp described).1
    rw [← List.getElem?_map, ← described, @eq_comm _ (plan.descriptions.map (·.item))[m]?,
      List.getElem?_inj inside nodup, ReferenceTarget.planned.injEq]
  · intro e
    exact iff_of_false nofun fun other => other.1 listed
  · intro i
    exact iff_of_false nofun fun other => other.2.1 listed

theorem of_undescribed (undescribed : id ∉ plan.descriptions.map (·.item)) :
    (first.elim (.unresolved id) .existing : ReferenceTarget).StandsFor id plan first := by
  have nowhere (n : Nat) : (plan.descriptions[n]?).map (·.item) ≠ some id := by
    rw [← List.getElem?_map]
    exact fun described => undescribed (List.mem_of_getElem? described)
  cases first with
  | none =>
    refine ⟨fun n => iff_of_false nofun (nowhere n), fun e => iff_of_false nofun nofun, ?_⟩
    intro i
    simp [undescribed, eq_comm]
  | some e =>
    refine ⟨fun n => iff_of_false nofun (nowhere n), ?_, fun i => iff_of_false nofun nofun⟩
    intro e'
    simp [undescribed]

end ReferenceTarget.StandsFor

section

variable {graph : TemplateGraph} {s : Store} {fresh : Nat → ElementId}
  {request : IncarnationRequest} {options : ResolveOptions} {reused : List ItemId}

theorem settled_incarnation (item : TemplateItem) :
    (settledSurvey graph request options s reused).incarnation? item =
      request.firstIncarnation? s options.lookup item := by
  have first : (settledSurvey graph request options s reused).existing? item =
      ((s.elementsOf request.unit request.domain).find? fun e =>
        options.lookup.Accepts item e).map (·.id) := existingIncarnation?_eq
  have policy : (settledSurvey graph request options s reused).walk.options.lookup =
      options.lookup := rfl
  rw [Survey.incarnation?, IncarnationRequest.firstIncarnation?, policy, first]
  cases options.lookup with
  | never | forReferencedItems | sameVersion | always => rfl

theorem settled_target (fresh : Nat → ElementId) {origin named : ItemId}
    {reference : ReferenceId} {t : ReferenceTarget}
    (h : (settledSurvey graph request options s reused).target origin reference named = .ok t) :
    ∃ item, graph.getIn? request.source named = some item ∧
      t.StandsFor named ((settledSurvey graph request options s reused).plan request fresh)
        (request.firstIncarnation? s options.lookup item) := by
  have items := settled_items graph s fresh request options reused
  obtain ⟨item, found, target⟩ := Survey.target_eq_ok h
  refine ⟨item, found, ?_⟩
  rcases target with ⟨n, position, rfl⟩ | ⟨position, rfl⟩
  · refine .of_described (settled_nodup graph s fresh request options reused) ?_
    rw [items]
    exact (PlannedItems.position?_eq_some_iff (Walk.plannedItems_nodup request.items)).mp position
  · rw [settled_incarnation]
    refine .of_undescribed ?_
    rw [items]
    exact PlannedItems.position?_eq_none_iff.mp position

/-- The references of a description lead where they should, and what the mode plans along is
planned. -/
theorem settled_leads {d : IncarnationDescription}
    (hd : d ∈ ((settledSurvey graph request options s reused).plan request fresh).descriptions)
    {x : ResolvedReference} (hx : x ∈ d.references) {named : ItemId × ReferenceTarget}
    (hnamed : named ∈ x.leads) :
    (∃ item, graph.getIn? request.source named.1 = some item ∧
      named.2.StandsFor named.1 ((settledSurvey graph request options s reused).plan request fresh)
        (request.firstIncarnation? s options.lookup item)) ∧
      (options.PlansAlong x.kind.type → ∃ n, named.2 = .planned n) := by
  obtain ⟨p, hp, described⟩ := forall₂_mem_right
    (settled_describes graph s fresh request options reused) hd
  obtain ⟨origin, found, r, hr, kind, leads⟩ := described.reference_origin hx
  obtain ⟨listed, target⟩ := leads named hnamed
  obtain ⟨item, exists_target, stands⟩ := settled_target fresh target
  refine ⟨⟨item, exists_target, stands⟩, ?_⟩
  intro along
  rw [kind] at along
  cases described.key_eq
  have planned := planned_of_plansAlong along (List.mem_map_of_mem (f := (·.1)) hp) found hr listed
    (Option.isSome_of_eq_some exists_target)
  rw [← settled_items graph s fresh] at planned
  obtain ⟨n, inside, at_position⟩ := List.getElem_of_mem planned
  refine ⟨n, (stands.planned n).mpr ?_⟩
  rw [← List.getElem?_map, List.getElem?_eq_getElem inside, at_position]

/-- Every target of a description stands for an item, and in closure mode for a planned one. -/
theorem settled_stands {d : IncarnationDescription}
    (hd : d ∈ ((settledSurvey graph request options s reused).plan request fresh).descriptions)
    {t : ReferenceTarget} (ht : t ∈ d.targets) :
    (∃ id item, t.StandsFor id ((settledSurvey graph request options s reused).plan request fresh)
        (request.firstIncarnation? s options.lookup item)) ∧
      (options.mode = .closure → ∃ n, t = .planned n) := by
  obtain ⟨x, hx, named, hnamed, rfl⟩ := IncarnationDescription.mem_targets.mp ht
  obtain ⟨⟨item, -, stands⟩, along⟩ := settled_leads hd hx hnamed
  exact ⟨⟨named.1, item, stands⟩, fun closure => along (.inl closure)⟩

end

/-- Whatever the references of a plan name is led to where it should be. -/
structure IncarnationPlan.LeadsRight (plan : IncarnationPlan) (graph : TemplateGraph) (s : Store)
    (request : IncarnationRequest) (options : ResolveOptions) : Prop where
  /-- What is named is an item of the namespace, and the target stands for it. -/
  stands : ∀ d ∈ plan.descriptions, ∀ x ∈ d.references, ∀ named ∈ x.leads, ∃ item,
    graph.getIn? request.source named.1 = some item ∧
      named.2.StandsFor named.1 plan (request.firstIncarnation? s options.lookup item)
  along : ∀ d ∈ plan.descriptions, ∀ x ∈ d.references, options.PlansAlong x.kind.type →
    ∀ named ∈ x.leads, ∃ n, named.2 = .planned n
  complete : options.mode = .closure → plan.issues = [] → plan.isComplete = true

/-- Every request that is resolved gives a plan whose references lead where they should. -/
theorem resolve_targets (graph : TemplateGraph) (c : Connection) (fresh : Nat → ElementId)
    (request : IncarnationRequest) (options : ResolveOptions) (plan : IncarnationPlan)
    (resolved : resolve graph c fresh request options = .ok plan) :
    plan.LeadsRight graph c.store request options := by
  obtain ⟨-, -, reused, -, rfl⟩ := resolve_eq_ok (resolve_connect resolved)
  refine ⟨?_, ?_, ?_⟩
  · intro d hd x hx named hnamed
    exact (settled_leads hd hx hnamed).1
  · intro d hd x hx along named hnamed
    exact (settled_leads hd hx hnamed).2 along
  · intro closure none
    rw [IncarnationPlan.isComplete, none, List.isEmpty_nil, Bool.true_and, List.isEmpty_iff,
      List.eq_nil_iff_forall_not_mem]
    intro id left
    obtain ⟨d, hd, ht⟩ := IncarnationPlan.mem_unresolved.mp left
    obtain ⟨n, planned⟩ := (settled_stands hd ht).2 closure
    cases planned

/-- An asset with a part that has an incarnation, a risk with an owner, and a link. Only the risk
and its owner are planned along. -/
theorem resolve_targets_of_risk :
    let domain : DomainId := ⟨⟨1⟩⟩
    let item (n : Nat) (references : List TailoringReference) : TemplateItem :=
      { id := ⟨⟨n⟩⟩, nspace := .domain domain, name := "item", elementType := .asset, references }
    let part := item 11 []
    let risk := item 12 []
    let owner := item 13 []
    let linked := item 14 []
    let whole := item 10 [⟨⟨⟨20⟩⟩, part.id, .part⟩,
      ⟨⟨⟨21⟩⟩, risk.id, .risk (some owner.id) none []⟩, ⟨⟨⟨22⟩⟩, linked.id, .plainLink "uses"⟩]
    let graph : TemplateGraph := ⟨[whole, part, risk, owner, linked], by decide⟩
    let held (n : Nat) : Element :=
      { id := ⟨⟨n⟩⟩, owner := ⟨⟨2⟩⟩, domain, name := "held", elementType := .asset
        appliedItem := some ⟨part.id, part.version⟩ }
    let s : Store := { elements := .ofList [held 4, held 3] }
    let request : IncarnationRequest := { unit := ⟨⟨2⟩⟩, domain, items := [whole.id] }
    let options : ResolveOptions := { mode := .manual }
    let fresh (n : Nat) : ElementId := ⟨⟨n + 50⟩⟩
    ∃ plan, resolve graph s.connect fresh request options = .ok plan ∧
      plan.descriptions.map (fun d => (d.item, d.references.map (·.leads))) =
        [(whole.id, [[(part.id, .existing ⟨⟨4⟩⟩)], [(risk.id, .planned 1), (owner.id, .planned 2)],
          [(linked.id, .unresolved linked.id)]]), (risk.id, []), (owner.id, [])] ∧
      plan.LeadsRight graph s request options := by
  intro domain item part risk owner linked whole graph held s request options fresh
  have found : (resolve graph s.connect fresh request options).toOption.map (fun plan =>
      plan.descriptions.map fun d => (d.item, d.references.map (·.leads))) = some
        [(whole.id, [[(part.id, .existing ⟨⟨4⟩⟩)], [(risk.id, .planned 1), (owner.id, .planned 2)],
          [(linked.id, .unresolved linked.id)]]), (risk.id, []), (owner.id, [])] := by
    decide +kernel
  obtain ⟨plan, resolved, told⟩ := Option.map_eq_some_iff.mp found
  rw [except_toOption_eq_some] at resolved
  exact ⟨plan, resolved, told, resolve_targets graph s.connect fresh request options plan resolved⟩

end TemplateCatalog
