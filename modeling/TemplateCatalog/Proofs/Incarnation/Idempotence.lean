import TemplateCatalog.Proofs.Incarnation.InPlace
import TemplateCatalog.Proofs.Plan.Resolution

/-!
# Resolving again after an application

Once a plan is applied, every item of a catalog for which its resolution looked has
an incarnation. It is the element of the description: a reused element is still the
first one in the store, and a new element is the only one that was made from its
item. Other items have the incarnations that they had before. So under `always` the
same request is resolved to the same plan with all elements reused.

Results:
1. `Application.run_of_reuses`: a plan that only reuses writes nothing.
2. `Committed.existing?_described`, `Committed.existing?_other`: the incarnations
   of an item after an application.
3. `resolve_again`: after an application the same request is resolved to a plan
   that only reuses, and whose application changes nothing.
-/

namespace TemplateCatalog

/-- The description with its element reused. -/
def IncarnationDescription.reusing (d : IncarnationDescription) : IncarnationDescription :=
  { d with disposition := .reuse d.disposition.element }

/-- The plan with all of its elements reused. -/
def IncarnationPlan.reusing (p : IncarnationPlan) : IncarnationPlan :=
  { p with descriptions := p.descriptions.map (·.reusing) }

theorem mergeFrom_reusing (origin : Nat) (seen : List Relation) (ds : List IncarnationDescription) :
    mergeFrom origin seen (ds.map (·.reusing)) = (mergeFrom origin seen ds).map (·.reusing) := by
  induction ds generalizing origin seen with
  | nil => rfl
  | cons d rest ih =>
    simp only [List.map_cons, mergeFrom, ih]
    rfl

theorem creationOrder_reusing (ds : List IncarnationDescription) :
    creationOrder (ds.map (·.reusing)) = creationOrder ds := by
  have dependencies : Dependencies.ofDescriptions (ds.map (·.reusing)) =
      Dependencies.ofDescriptions ds := by
    unfold Dependencies.ofDescriptions
    rw [List.zipIdx_map, List.map_map, List.length_map]
    rfl
  rw [creationOrder, dependencies, creationOrder]

/-! ## Plans that only reuse -/

namespace Application

variable {a : Application}

theorem createAll_of_reuses {ds : List IncarnationDescription}
    (h : ∀ d ∈ ds, d.disposition.isCreate = false) (ws : Workspace)
    (guards : List IncarnationGuard) : a.createAll ws guards ds = .ok (ws, guards) := by
  induction ds with
  | nil => rfl
  | cons d rest ih =>
    obtain ⟨head, tail⟩ := List.forall_mem_cons.mp h
    unfold createAll
    cases hd : d.disposition with
    | reuse id => exact ih tail
    | create id isGuarded =>
      rw [hd] at head
      cases head

theorem wireAll_of_reuses {ds : List IncarnationDescription}
    (h : ∀ d ∈ ds, d.disposition.isCreate = false) (ws : Workspace) :
    a.wireAll ws ds = .ok ws := by
  induction ds with
  | nil => rfl
  | cons d rest ih =>
    obtain ⟨head, tail⟩ := List.forall_mem_cons.mp h
    unfold wireAll
    rw [head, if_neg Bool.false_ne_true]
    exact ih tail

theorem check_of_run {result : AppliedIncarnation × Store} (h : a.run = .ok result) :
    a.check = .ok () := by
  unfold run at h
  obtain ⟨batch, computed, -⟩ := except_bind_eq_ok.mp h
  exact check_of_computeBatch computed

theorem run_of_reuses {s : Store} (plain : a.connection = s.connect) (checked : a.check = .ok ())
    (reuses : ∀ d ∈ a.plan.descriptions, d.disposition.isCreate = false) :
    a.run = .ok (⟨a.plan.descriptions.map (·.disposition.element), [], []⟩, s) := by
  have ordered : ∀ d ∈ a.plan.inCreationOrder, d.disposition.isCreate = false := fun d hd =>
    reuses d (IncarnationPlan.mem_inCreationOrder.mp hd)
  have batch : a.computeBatch = .ok { unit := a.plan.unit, domain := a.domain.id } := by
    unfold computeBatch
    rw [checked]
    simp only [bind, Except.bind, createAll_of_reuses ordered, wireAll_of_reuses ordered]
    rfl
  obtain ⟨-, ⟨unit, found, -⟩, -⟩ := check_eq_ok_iff.mp checked
  rw [plain] at found
  have exists_unit : s.units.contains a.plan.unit = true :=
    Option.isSome_of_eq_some (Except.ok.inj found)
  have allowed : s.violation? { unit := a.plan.unit, domain := a.domain.id } = none := by
    unfold Store.violation? Store.nameViolation?
    simp [exists_unit, Store.guardViolation?, Store.takenName?]
  unfold run
  rw [batch, plain]
  simp only [bind, Except.bind, Store.connect_commit, Store.commit, allowed]
  rfl

end Application

/-! ## Incarnations after an application -/

theorem existingIncarnation?_append (found held : List Element) (p : LookupPolicy)
    (item : TemplateItem) : existingIncarnation? (found ++ held) p item =
      (existingIncarnation? found p item).or (existingIncarnation? held p item) := by
  simp only [existingIncarnation?_eq, List.find?_append, Option.map_or]

/-- Only identifiers and tags matter. -/
theorem existingIncarnation?_map {found : List Element} {f : Element → Element}
    (ids : ∀ e, (f e).id = e.id) (tags : ∀ e ∈ found, (f e).appliedItem = e.appliedItem)
    (p : LookupPolicy) (item : TemplateItem) :
    existingIncarnation? (found.map f) p item = existingIncarnation? found p item := by
  induction found with
  | nil => rfl
  | cons e rest ih =>
    obtain ⟨tag, tags⟩ := List.forall_mem_cons.mp tags
    have accepts : decide (p.Accepts item (f e)) = decide (p.Accepts item e) := by
      refine decide_eq_decide.mpr ?_
      unfold LookupPolicy.Accepts
      rw [tag]
    specialize ih tags
    rw [existingIncarnation?_eq, existingIncarnation?_eq] at ih ⊢
    rw [List.map_cons, List.find?_cons, List.find?_cons, accepts]
    cases decide (p.Accepts item e) with
    | true => exact congrArg some (ids e)
    | false => exact ih

namespace Store.Committed

variable {s s' : Store} {a : Application} {applied : AppliedIncarnation} {ws : Workspace}

/-- The unit holds what it held, possibly grown, and the new elements. -/
theorem elementsOf_eq (c : Committed s a applied s' ws) :
    s'.elementsOf a.plan.unit a.domain.id =
      (s.elementsOf a.plan.unit a.domain.id).map (Table.replacement Element.id ws.modified) ++
        ws.created := by
  unfold elementsOf
  rw [c.rows, List.filter_append, List.filter_map]
  congr 1
  · congr 1
    refine List.filter_congr fun e he => ?_
    rcases c.replacement_cases he with ⟨-, same⟩ | ⟨-, -, grown⟩
    · rw [Function.comp_apply, same]
    · rw [Function.comp_apply, grown.owner_eq, grown.domain_eq]
  · refine List.filter_eq_self.mpr fun e he => ?_
    obtain ⟨d, -, -, created⟩ := Application.origin_of_creates c.creates he
    simp [created.place]

theorem existing?_eq (c : Committed s a applied s' ws) (p : LookupPolicy) (item : TemplateItem) :
    existingIncarnation? (s'.elementsOf a.plan.unit a.domain.id) p item =
      (existingIncarnation? (s.elementsOf a.plan.unit a.domain.id) p item).or
        (existingIncarnation? ws.created p item) := by
  rw [c.elementsOf_eq, existingIncarnation?_append, existingIncarnation?_map]
  · exact fun e => Table.key_replacement ws.modified e
  · intro e he
    rcases c.replacement_cases (List.mem_of_mem_filter he) with ⟨-, same⟩ | ⟨-, -, grown⟩
    · rw [same]
    · exact Element.eq_of_core Element.appliedItem (fun _ => rfl) grown.core_eq

/-! ### In a catalog -/

section

variable {catalog : DomainId} {item : TemplateItem} {p : LookupPolicy}

/-- In a catalog a new element is an incarnation of the item that its description names, in the
version in which the graph has the item. -/
theorem accepts_created_iff {d : IncarnationDescription} {e : Element} (h : a.Creates d e)
    (described : (a.graph.getIn? (.domain catalog) d.item).isSome = true)
    (found : a.graph.getIn? (.domain catalog) item.id = some item) :
    p.Accepts item e ↔ d.item = item.id := by
  obtain ⟨origin, horigin⟩ := Option.isSome_iff_exists.mp described
  obtain ⟨got, inCatalog⟩ := TemplateGraph.getIn?_eq_some_iff.mp horigin
  have tag := h.tag got
  have applies : origin.applied? = some d.item := by
    rw [TemplateItem.applied?, inCatalog, TemplateGraph.id_of_getIn? horigin]
  have applies' : item.applied? = some item.id := by
    rw [TemplateItem.applied?, (TemplateGraph.getIn?_eq_some_iff.mp found).2]
  rw [applies] at tag
  constructor
  · rintro ⟨tagged, same, names, -⟩
    cases tag.symm.trans same
    exact Option.some.inj (names.symm.trans applies')
  · intro names
    rw [names] at horigin
    cases horigin.symm.trans found
    exact ⟨_, tag, applies'.trans (congrArg some names.symm), fun _ => rfl⟩

variable (c : Committed s a applied s' ws)
  (described : ∀ d ∈ a.plan.descriptions, (a.graph.getIn? (.domain catalog) d.item).isSome = true)
  (found : a.graph.getIn? (.domain catalog) item.id = some item)
include c described found

/-- New incarnations of an item come from descriptions of the item. -/
theorem exists_of_existing?_created {id : ElementId}
    (existing : existingIncarnation? ws.created p item = some id) :
    ∃ d ∈ a.plan.descriptions, d.item = item.id ∧ d.disposition.isCreate = true ∧
      d.disposition.element = id := by
  obtain ⟨e, he, rfl, accepted⟩ := existingIncarnation?_eq_some existing
  obtain ⟨d, hd, creates, created⟩ := Application.origin_of_creates c.creates he
  exact ⟨d, hd, (accepts_created_iff created (described d hd) found).mp accepted, creates,
    created.element⟩

theorem existing?_created {d : IncarnationDescription}
    (distinct : (a.plan.descriptions.map (·.item)).Nodup) (hd : d ∈ a.plan.descriptions)
    (names : d.item = item.id) (creates : d.disposition.isCreate = true) :
    existingIncarnation? ws.created p item = some d.disposition.element := by
  obtain ⟨e, he, created⟩ := forall₂_mem_right (List.Forall₂.flip c.creates)
    (List.mem_filter.mpr ⟨IncarnationPlan.mem_inCreationOrder.mpr hd, creates⟩)
  cases existing : existingIncarnation? ws.created p item with
  | none =>
    have accepted : p.Accepts item e :=
      (accepts_created_iff created (described d hd) found).mpr names
    exact absurd accepted (existingIncarnation?_eq_none_iff.mp existing e he)
  | some id =>
    obtain ⟨d', hd', names', -, element⟩ := c.exists_of_existing?_created described found existing
    cases List.inj_on_of_nodup_map distinct hd' hd (names'.trans names.symm)
    rw [element]

/-- An item that is described has the element of its description as its incarnation, if the policy
looked for one. -/
theorem existing?_described {request : IncarnationRequest} {d : IncarnationDescription}
    (sameUnit : a.plan.unit = request.unit) (sameDomain : a.domain.id = request.domain)
    (distinct : (a.plan.descriptions.map (·.item)).Nodup) (hd : d ∈ a.plan.descriptions)
    (names : d.item = item.id) (disposes : request.Disposes s p item d)
    (applies : p.appliesTo d.requested = true) :
    existingIncarnation? (s'.elementsOf a.plan.unit a.domain.id) p item =
      some d.disposition.element := by
  rw [c.existing?_eq, existingIncarnation?_eq, sameUnit, sameDomain]
  unfold IncarnationRequest.Disposes at disposes
  rw [if_pos applies] at disposes
  cases first : (s.elementsOf request.unit request.domain).find? fun e => p.Accepts item e with
  | some e =>
    simp only [first] at disposes
    rw [disposes]
    rfl
  | none =>
    simp only [first] at disposes
    obtain ⟨id, disposition⟩ := disposes
    have created : existingIncarnation? ws.created p item = some d.disposition.element :=
      c.existing?_created described found distinct hd names (by rw [disposition]; rfl)
    rw [created]
    rfl

/-- An item that is not described has the incarnation that it had before. -/
theorem existing?_other (other : item.id ∉ a.plan.descriptions.map (·.item)) :
    existingIncarnation? (s'.elementsOf a.plan.unit a.domain.id) p item =
      existingIncarnation? (s.elementsOf a.plan.unit a.domain.id) p item := by
  rw [c.existing?_eq]
  cases created : existingIncarnation? ws.created p item with
  | none => exact Option.or_none
  | some id =>
    obtain ⟨d, hd, names, -⟩ := c.exists_of_existing?_created described found created
    exact absurd (names ▸ List.mem_map_of_mem hd) other

end

end Store.Committed

/-! ## The second resolution -/

namespace Survey

variable {w : Walk} {planned : PlannedItems} {found found' : List Element}

section

variable (always : w.options.lookup = .always)
  (other : ∀ item, w.item? item.id = some item → item.id ∉ planned.map (·.1) →
    existingIncarnation? found .always item = existingIncarnation? found' .always item)
include always other

theorem describe_reusing {item : TemplateItem} {requested : Bool} {id : ElementId}
    (existing : existingIncarnation? found' .always item =
      some ((⟨w, planned, found⟩ : Survey).disposition item requested id).element)
    (id' : ElementId) :
    (⟨w, planned, found'⟩ : Survey).describe item requested id' =
      ((⟨w, planned, found⟩ : Survey).describe item requested id).reusing := by
  have references : (w.followed item).filterMap ((⟨w, planned, found'⟩ : Survey).resolve? item.id) =
      (w.followed item).filterMap ((⟨w, planned, found⟩ : Survey).resolve? item.id) := by
    refine List.filterMap_congr fun r _ => resolve?_congr fun t _ => ?_
    refine target_congr fun _ unplanned target htarget => ?_
    cases TemplateGraph.id_of_getIn? htarget
    rw [always]
    exact (other target htarget unplanned).symm
  have disposition : (⟨w, planned, found'⟩ : Survey).disposition item requested id' =
      .reuse ((⟨w, planned, found⟩ : Survey).disposition item requested id).element := by
    rw [Survey.disposition, existing?, always, existing]
    rfl
  simp only [describe, IncarnationDescription.reusing, references, disposition]

theorem describeFrom_reusing (fresh fresh' : Nat → ElementId) (n n' : Nat) {rest : PlannedItems}
    (described : ∀ d ∈ (⟨w, planned, found⟩ : Survey).describeFrom fresh n rest, ∀ item,
      w.item? d.item = some item →
        existingIncarnation? found' .always item = some d.disposition.element) :
    (⟨w, planned, found'⟩ : Survey).describeFrom fresh' n' rest =
      ((⟨w, planned, found⟩ : Survey).describeFrom fresh n rest).map (·.reusing) := by
  induction rest generalizing n n' with
  | nil => rfl
  | cons p rest ih =>
    obtain ⟨id, requested⟩ := p
    unfold describeFrom at described ⊢
    simp only at described ⊢
    cases hitem : w.item? id with
    | none =>
      simp only [hitem] at described
      exact ih n n' described
    | some item =>
      simp only [hitem] at described
      obtain ⟨head, tail⟩ := List.forall_mem_cons.mp described
      cases TemplateGraph.id_of_getIn? hitem
      simp only
      rw [List.map_cons, ih _ _ tail, describe_reusing always other (head item hitem)]

/-- A survey that finds the elements of all descriptions reuses them, if nothing else is new. -/
theorem descriptions_reusing {fresh : Nat → ElementId}
    (described : ∀ d ∈ (⟨w, planned, found⟩ : Survey).descriptions fresh, ∀ item,
      w.item? d.item = some item →
        existingIncarnation? found' .always item = some d.disposition.element)
    (fresh' : Nat → ElementId) :
    (⟨w, planned, found'⟩ : Survey).descriptions fresh' =
      ((⟨w, planned, found⟩ : Survey).descriptions fresh).map (·.reusing) :=
  describeFrom_reusing always other fresh fresh' 0 0 described

end

end Survey

theorem reused_eq_nil {graph : TemplateGraph} {request : IncarnationRequest}
    {options : ResolveOptions} {s : Store} {reused : List ItemId}
    (always : options.lookup = .always) (h : ReusesCut graph request options s reused) :
    reused = [] := by
  refine List.eq_nil_iff_forall_not_mem.mpr fun id hid => ?_
  obtain ⟨item, -, cut⟩ := h id hid
  simp only [IncarnationRequest.Cuts, always] at cut

theorem settled_plan_reusing {graph : TemplateGraph} {request : IncarnationRequest}
    {options : ResolveOptions} {s s' : Store} {reused : List ItemId} {fresh fresh' : Nat → ElementId}
    (h : (settledSurvey graph request options s' reused).descriptions fresh' =
      ((settledSurvey graph request options s reused).descriptions fresh).map (·.reusing)) :
    (settledSurvey graph request options s' reused).plan request fresh' =
      ((settledSurvey graph request options s reused).plan request fresh).reusing := by
  have merged : (settledSurvey graph request options s' reused).merged fresh' =
      ((settledSurvey graph request options s reused).merged fresh).map (·.reusing) := by
    have sameOptions : (settledSurvey graph request options s' reused).walk =
        (settledSurvey graph request options s reused).walk := rfl
    unfold Survey.merged
    rw [sameOptions, h]
    split
    · exact mergeFrom_reusing 0 [] _
    · rfl
  have issues : (settledSurvey graph request options s' reused).issues =
      (settledSurvey graph request options s reused).issues := Survey.issues_eq _ _ _ _
  unfold Survey.plan IncarnationPlan.reusing
  rw [merged, issues, creationOrder_reusing]
  rfl

/-- A plan that was checked needs no other check once its elements are reused. -/
theorem check_reusing {graph : TemplateGraph} {domain : Domain} {s s' : Store}
    {plan : IncarnationPlan} (units : s'.units = s.units)
    (checked : Application.check ⟨s.connect, graph, domain, plan⟩ = .ok ()) :
    Application.check ⟨s'.connect, graph, domain, plan.reusing⟩ = .ok () := by
  rw [Application.check_eq_ok_iff] at checked ⊢
  obtain ⟨sameDomain, ⟨unit, found, associated⟩, noFault⟩ := checked
  refine ⟨sameDomain, ⟨unit, ?_, associated⟩, ?_⟩
  · rw [← found]
    show Except.ok (s'.units.get? plan.unit) = Except.ok (s.units.get? plan.unit)
    rw [units]
  · rw [IncarnationPlan.fault?_eq_none_iff] at noFault ⊢
    refine ⟨List.pairwise_map.mpr (List.pairwise_of_forall fun _ _ => nofun), fun d hd => ?_⟩
    obtain ⟨origin, horigin, rfl⟩ := List.mem_map.mp hd
    show ∀ t ∈ origin.plannedTargets, t < (plan.descriptions.map (·.reusing)).length
    rw [List.length_map]
    exact noFault.2 origin horigin

section

variable {graph : TemplateGraph} {domain : Domain} {s s' : Store} {request : IncarnationRequest}
  {options : ResolveOptions} {catalog : DomainId} {reused : List ItemId} {fresh : Nat → ElementId}
  {applied : AppliedIncarnation} {ws : Workspace} {item : TemplateItem}
  (committed : Store.Committed s ⟨s.connect, graph, domain,
    (settledSurvey graph request options s reused).plan request fresh⟩ applied s' ws)
  (inCatalog : request.source = .domain catalog)
include committed inCatalog

/-- The element of a description is found where the policy looks. -/
theorem existing?_of_planned {d : IncarnationDescription}
    (hd : d ∈ ((settledSurvey graph request options s reused).plan request fresh).descriptions)
    (applies : options.lookup.appliesTo d.requested = true)
    (found : graph.getIn? request.source d.item = some item) :
    existingIncarnation? (s'.elementsOf request.unit request.domain) options.lookup item =
      some d.disposition.element := by
  have sameDomain : domain.id = request.domain := committed.sameDomain.symm
  obtain ⟨item', found', disposes⟩ := settled_disposes graph s fresh request options reused hd
  cases found.symm.trans found'
  have names := TemplateGraph.id_of_getIn? found
  have catalogued := settled_exist graph s fresh request options reused
  rw [inCatalog] at catalogued
  have existing := committed.existing?_described catalogued (names ▸ inCatalog ▸ found) rfl
    sameDomain (settled_nodup graph s fresh request options reused) hd names.symm disposes applies
  rw [sameDomain] at existing
  exact existing

/-- Merging keeps items and dispositions, so the elements of all descriptions are found. -/
theorem existing?_of_described (always : options.lookup = .always) {d : IncarnationDescription}
    (hd : d ∈ (settledSurvey graph request options s reused).descriptions fresh)
    (found : graph.getIn? request.source d.item = some item) :
    existingIncarnation? (s'.elementsOf request.unit request.domain) .always item =
      some d.disposition.element := by
  obtain ⟨d', hd', thins⟩ := forall₂_mem_right
    (List.Forall₂.flip ((settledSurvey graph request options s reused).merged_thins fresh)) hd
  rw [← thins.item] at found
  have existing := existing?_of_planned committed inCatalog hd' (always ▸ rfl) found
  rw [always, thins.disposition] at existing
  exact existing

theorem existing?_of_unplanned (found : graph.getIn? request.source item.id = some item)
    (unplanned : item.id ∉ (settledSurvey graph request options s reused).planned.map (·.1)) :
    existingIncarnation? (s'.elementsOf request.unit request.domain) .always item =
      existingIncarnation? (s.elementsOf request.unit request.domain) .always item := by
  have sameDomain : domain.id = request.domain := committed.sameDomain.symm
  have catalogued := settled_exist graph s fresh request options reused
  rw [inCatalog] at catalogued
  rw [← sameDomain]
  exact committed.existing?_other catalogued (inCatalog ▸ found)
    (settled_items graph s fresh request options reused ▸ unplanned)

end

/-- Once a plan for items of a catalog was applied, the same request is resolved to the same plan
with all elements reused, and its application changes nothing. -/
theorem resolve_again (graph : TemplateGraph) (domain : Domain) (s s' : Store)
    (request : IncarnationRequest) (options : ResolveOptions) (catalog : DomainId)
    (fresh fresh' : Nat → ElementId) (plan : IncarnationPlan) (applied : AppliedIncarnation)
    (always : options.lookup = .always) (inCatalog : request.source = .domain catalog)
    (resolved : resolve graph s.connect fresh request options = .ok plan)
    (succeeded : Application.run ⟨s.connect, graph, domain, plan⟩ = .ok (applied, s')) :
    resolve graph s'.connect fresh' request options = .ok plan.reusing ∧
      Application.run ⟨s'.connect, graph, domain, plan.reusing⟩ =
        .ok (⟨plan.descriptions.map (·.disposition.element), [], []⟩, s') := by
  obtain ⟨nonempty, exist, reused, cuts, rfl⟩ := resolve_eq_ok resolved
  obtain ⟨reused', cuts', resolved'⟩ := resolve_eq s' fresh' options nonempty exist
  cases reused_eq_nil always cuts.cuts
  cases reused_eq_nil always cuts'.cuts
  obtain ⟨ws, committed⟩ := Store.committed_of_run rfl succeeded
  constructor
  · have described := Survey.descriptions_reusing (w := request.walk graph options []) always
      (fun item found unplanned =>
        (existing?_of_unplanned committed inCatalog found unplanned).symm)
      (fun d hd item found => existing?_of_described committed inCatalog always hd found) fresh'
    exact resolved'.trans (congrArg _ (settled_plan_reusing described))
  · have checked := check_reusing committed.units (Application.check_of_run succeeded)
    rw [Application.run_of_reuses rfl checked]
    · simp only [IncarnationPlan.reusing, List.map_map]
      rfl
    · intro d hd
      obtain ⟨origin, -, rfl⟩ := List.mem_map.mp hd
      rfl

/-- Two assets that are parts of each other, one of which has an incarnation already. -/
theorem resolve_again_of_circle :
    let domain : Domain := .ofTemplate ⟨⟨1⟩⟩ { id := ⟨⟨0⟩⟩, name := "template", version := {} }
    let item (n : Nat) (references : List TailoringReference) : TemplateItem :=
      { id := ⟨⟨n⟩⟩, nspace := domain.nspace, name := "item", elementType := .asset, references }
    let whole := item 10 [⟨⟨⟨20⟩⟩, ⟨⟨11⟩⟩, .part⟩]
    let part := item 11 [⟨⟨⟨21⟩⟩, ⟨⟨10⟩⟩, .part⟩]
    let graph : TemplateGraph := ⟨[whole, part], by decide⟩
    let s : Store := {
      units := .ofList [⟨⟨⟨2⟩⟩, "unit", [domain.id]⟩]
      elements := .ofList [part.toElement ⟨⟨3⟩⟩ ⟨⟨2⟩⟩ domain.id] }
    let request : IncarnationRequest := { unit := ⟨⟨2⟩⟩, domain := domain.id, items := [whole.id] }
    let options : ResolveOptions := { lookup := .always }
    let fresh (n : Nat) : ElementId := ⟨⟨n + 50⟩⟩
    let fresh' (n : Nat) : ElementId := ⟨⟨n + 70⟩⟩
    ∃ plan applied s', options.lookup = .always ∧ request.source = .domain domain.id ∧
      resolve graph s.connect fresh request options = .ok plan ∧
      Application.run ⟨s.connect, graph, domain, plan⟩ = .ok (applied, s') ∧
      applied.created = [fresh 0] ∧
      resolve graph s'.connect fresh' request options = .ok plan.reusing ∧
      Application.run ⟨s'.connect, graph, domain, plan.reusing⟩ =
        .ok (⟨plan.descriptions.map (·.disposition.element), [], []⟩, s') := by
  intro domain item whole part graph s request options fresh fresh'
  let plan : IncarnationPlan := {
    unit := request.unit
    domain := domain.id
    lookup := .always
    descriptions := [
      { item := whole.id
        requested := true
        disposition := .create (fresh 0) true
        references := [⟨⟨⟨20⟩⟩, part.id, .part, .planned 1, []⟩] },
      { item := part.id
        requested := false
        disposition := .reuse ⟨⟨3⟩⟩
        references := [⟨⟨⟨21⟩⟩, whole.id, .part, .planned 0, []⟩] }]
    creationOrder := [0, 1] }
  have resolved : resolve graph s.connect fresh request options = .ok plan := by decide +kernel
  have created : (Application.run ⟨s.connect, graph, domain, plan⟩).toOption.map (·.1.created) =
      some [fresh 0] := by decide +kernel
  cases succeeded : Application.run ⟨s.connect, graph, domain, plan⟩ with
  | error e =>
    rw [succeeded] at created
    cases created
  | ok result =>
    obtain ⟨applied, s'⟩ := result
    rw [succeeded] at created
    exact ⟨plan, applied, s', rfl, rfl, resolved, succeeded, Option.some.inj created,
      resolve_again graph domain s s' request options domain.id fresh fresh' plan applied rfl rfl
        resolved succeeded⟩

end TemplateCatalog
