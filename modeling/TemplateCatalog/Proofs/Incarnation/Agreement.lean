import TemplateCatalog.Proofs.Incarnation.InPlace
import TemplateCatalog.Proofs.Plan.Targets

/-!
# Resolution and application agree

An application checks its plan anew: items, positions, reused elements and
guards. A plan that was just resolved passes all of these checks, since they are
backed by the graph and by the store (`IncarnationPlan.Backed`). What is left
are the checks that a resolution does not make: of the unit, the sub-types, the
types of related elements, the risk values and the names. In manual mode a plan
may also lead to items that are neither planned nor found.

Results:
1. `resolve_backed`: what is resolved is backed.
2. `Application.computeBatch_expected`: the batch of a backed plan is worked out,
   or it is refused for one of the expected reasons.
3. `Application.commit_expected`: only names can stand in the way of that batch.
4. `run_of_resolved`: a plan that was just resolved is applied, or it is refused
   for one of the expected reasons.
-/

namespace TemplateCatalog

/-! ## Backed plans -/

/-- The unit of a plan has a stored element with the identifier. -/
def Store.Owns (s : Store) (unit : UnitId) (id : ElementId) : Prop :=
  ∃ e ∈ s.elements.rows, e.id = id ∧ e.owner = unit

/-- All that the application of a plan relies on. -/
structure IncarnationPlan.Backed (plan : IncarnationPlan) (graph : TemplateGraph) (s : Store)
    (mode : RequestMode) : Prop where
  items : ∀ d ∈ plan.descriptions, (graph.get? d.item).isSome = true
  reused : ∀ d ∈ plan.descriptions, ∀ id, d.disposition = .reuse id → s.Owns plan.unit id
  planned : ∀ d ∈ plan.descriptions, ∀ n, .planned n ∈ d.targets → n < plan.descriptions.length
  existing : ∀ d ∈ plan.descriptions, ∀ id, .existing id ∈ d.targets → s.Owns plan.unit id
  unresolved : ∀ d ∈ plan.descriptions, ∀ item, .unresolved item ∈ d.targets → mode = .manual
  /-- Where an incarnation was looked for and none was found, none violates the guard. -/
  unguarded : ∀ d ∈ plan.descriptions, ∀ id, d.disposition = .create id true →
    ∀ item, graph.get? d.item = some item → ∀ g, plan.guardFor? item = some g →
      ∀ e ∈ s.elementsOf plan.unit plan.domain, g.isViolatedBy e = false

theorem Store.owns_of_mem {s : Store} {unit : UnitId} {domain : DomainId} {e : Element}
    (he : e ∈ s.elementsOf unit domain) : s.Owns unit e.id := by
  obtain ⟨stored, place⟩ := List.mem_filter.mp he
  rw [Bool.and_eq_true, decide_eq_true_eq] at place
  exact ⟨e, stored, rfl, place.1⟩

section

variable {graph : TemplateGraph} {s : Store} {fresh : Nat → ElementId}
  {request : IncarnationRequest} {options : ResolveOptions} {plan : IncarnationPlan}

/-- A guard is violated by what a look-up for the item would have found. -/
theorem IncarnationPlan.isViolatedBy_iff {plan : IncarnationPlan} {item : TemplateItem}
    {g : IncarnationGuard} (h : plan.guardFor? item = some g) {e : Element} :
    g.isViolatedBy e = true ↔ plan.lookup.Accepts item e := by
  obtain ⟨applied, applies, rfl⟩ := Option.map_eq_some_iff.mp h
  unfold IncarnationGuard.isViolatedBy LookupPolicy.Accepts
  rw [Option.any_eq_true]
  refine exists_congr fun a => and_congr_right fun _ => ?_
  rw [applies, Option.some.injEq, Bool.and_eq_true, beq_iff_eq, @eq_comm _ applied]
  refine and_congr_right fun _ => ?_
  by_cases policy : plan.lookup = .sameVersion
  · rw [if_pos policy, Option.all_some, beq_iff_eq]
    exact ⟨fun same _ => same.symm, fun same => (same policy).symm⟩
  · rw [if_neg policy]
    exact ⟨fun _ same => absurd same policy, fun _ => rfl⟩

theorem resolve_backed (h : resolve graph s.connect fresh request options = .ok plan) :
    plan.Backed graph s options.mode := by
  obtain ⟨-, -, reused, -, rfl⟩ := resolve_eq_ok h
  refine ⟨fun d hd => ?_, fun d hd id reuse => ?_, fun d hd n ht => ?_, fun d hd id ht => ?_,
    fun d hd t ht => ?_, fun d hd id create item got g guard e he => ?_⟩
  all_goals
    obtain ⟨itemOf, foundOf, disposes⟩ := settled_disposes graph s fresh request options reused hd
  · rw [(TemplateGraph.getIn?_eq_some_iff.mp foundOf).1]
    rfl
  · obtain ⟨e, he, rfl, -⟩ := disposes.of_reuse reuse
    exact Store.owns_of_mem he
  · obtain ⟨⟨_, _, stands⟩, -⟩ := settled_stands hd ht
    obtain ⟨_, described, -⟩ := Option.map_eq_some_iff.mp ((stands.planned n).mp rfl)
    exact (List.getElem?_eq_some_iff.mp described).1
  · obtain ⟨⟨_, _, stands⟩, -⟩ := settled_stands hd ht
    obtain ⟨-, first⟩ := (stands.existing id).mp rfl
    obtain ⟨e, he, rfl, -⟩ := IncarnationRequest.firstIncarnation?_eq_some first
    exact Store.owns_of_mem he
  · cases mode : options.mode with
    | manual => rfl
    | closure =>
      obtain ⟨_, planned⟩ := (settled_stands hd ht).2 mode
      cases planned
  · cases got.symm.trans (TemplateGraph.getIn?_eq_some_iff.mp foundOf).1
    rw [← Bool.not_eq_true, IncarnationPlan.isViolatedBy_iff guard]
    exact (disposes.of_create create (disposes.applies_of_guarded create)).2 e he

end

/-! ## Expected errors -/

/-- The reasons for which a plan that was just resolved may be refused. -/
inductive ApplyError.Expected (plan : IncarnationPlan) (mode : RequestMode) : ApplyError → Prop
  | unitNotFound (unit : UnitId) : Expected plan mode (.unitNotFound unit)
  | unitNotInDomain (unit : UnitId) (domain : DomainId) :
      Expected plan mode (.unitNotInDomain unit domain)
  /-- Only a plan in manual mode may lead to items that are neither planned nor found. -/
  | missingTarget {target : ItemId} (requiredBy : ItemId) :
      mode = .manual → target ∈ plan.unresolved → Expected plan mode (.missingTarget target requiredBy)
  | invalidSubType (item : ItemId) (subType status : String) :
      Expected plan mode (.invalidSubType item subType status)
  | modelConsistency (fault : RelationFault) : Expected plan mode (.modelConsistency fault)
  | invalidRiskValue (item : ItemId) (riskDefinition : String) (fault : RiskValueFault) :
      Expected plan mode (.invalidRiskValue item riskDefinition fault)
  | duplicateName (unit : UnitId) (name : String) :
      Expected plan mode (.repository (.duplicateName unit name))

namespace Workspace

variable {plan : IncarnationPlan} {mode : RequestMode} {s : Store} {ws ws' : Workspace}
  {id : ElementId}

/-- The element is a new one or a stored one of the unit. -/
def Provides (ws : Workspace) (s : Store) (id : ElementId) : Prop :=
  id ∈ ws.created.map (·.id) ∨ s.Owns ws.unit id

section

variable (plain : ws.connection = s.connect)
include plain

theorem load_of_owns (h : s.Owns ws.unit id) : ∃ e, ws.load id = .ok e := by
  obtain ⟨e, he, hid, owned⟩ := h
  have found : ws.connection.findElement id = .ok (some e) := by
    rw [plain]
    exact congrArg Except.ok (Table.get?_eq_some_iff.mpr ⟨he, hid⟩)
  exact ⟨e, by simp only [load, found, owned, if_true]⟩

theorem element_of_provides (h : ws.Provides s id) : ∃ e, ws.element id = .ok e := by
  cases hc : find? ws.created id with
  | some e => exact ⟨e, element_of_created hc⟩
  | none =>
    cases hm : find? ws.modified id with
    | some e => exact ⟨e, element_of_modified hc hm⟩
    | none =>
      rw [element_of_load hc hm]
      exact load_of_owns plain (h.resolve_left (find?_eq_none_iff.mp hc))

theorem update_of_provides (h : ws.Provides s id) (f : Element → Element) :
    ∃ ws', ws.update id f = .ok ws' := by
  unfold update
  cases hc : find? ws.created id with
  | some e => exact ⟨_, rfl⟩
  | none =>
    cases hm : find? ws.modified id with
    | some e => exact ⟨_, rfl⟩
    | none =>
      obtain ⟨e, loaded⟩ := load_of_owns plain (h.resolve_left (find?_eq_none_iff.mp hc))
      exact ⟨{ ws with modified := ws.modified ++ [f e] }, by simp [loaded, Except.map]⟩

theorem element_expected (h : ws.Provides s id) :
    FailsOnly (ApplyError.Expected plan mode) (ws.element id) := by
  obtain ⟨e, found⟩ := element_of_provides plain h
  exact .of_ok found

theorem update_expected (h : ws.Provides s id) (f : Element → Element) :
    FailsOnly (ApplyError.Expected plan mode) (ws.update id f) := by
  obtain ⟨ws', updated⟩ := update_of_provides plain h f
  exact .of_ok updated

theorem requireType_expected (h : ws.Provides s id) (expected : ElementType) (role : String) :
    FailsOnly (ApplyError.Expected plan mode) (ws.requireType id expected role) := by
  refine (element_expected plain h).bind fun e _ => ?_
  split
  · exact .of_ok rfl
  · exact .error (.modelConsistency _)

theorem requireTypeIf_expected {o : Option ElementId} (h : ∀ id, o = some id → ws.Provides s id)
    (expected : ElementType) (role : String) :
    FailsOnly (ApplyError.Expected plan mode) (ws.requireTypeIf o expected role) := by
  cases o with
  | none => exact .of_ok rfl
  | some id => exact requireType_expected plain (h id rfl) expected role

theorem requireRiskAffected_expected (h : ws.Provides s id) :
    FailsOnly (ApplyError.Expected plan mode) (ws.requireRiskAffected id) := by
  refine (element_expected plain h).bind fun e _ => ?_
  split
  · exact .of_ok rfl
  · exact .error (.modelConsistency _)

theorem addPart_expected {composite part : ElementId} (hc : ws.Provides s composite)
    (hp : ws.Provides s part) :
    FailsOnly (ApplyError.Expected plan mode) (ws.addPart composite part) := by
  refine (element_expected plain hc).bind fun c _ => ?_
  refine (element_expected plain hp).bind fun p _ => ?_
  split
  · exact update_expected plain hc _
  · exact .error (.modelConsistency _)

theorem addMember_expected {scope member : ElementId} (hs : ws.Provides s scope)
    (hm : ws.Provides s member) :
    FailsOnly (ApplyError.Expected plan mode) (ws.addMember scope member) := by
  refine (requireType_expected plain hs _ _).bind fun _ _ => ?_
  refine (element_expected plain hm).bind fun _ _ => ?_
  exact update_expected plain hs _

end

end Workspace

theorem Domain.checkRiskValues_expected {plan : IncarnationPlan} {mode : RequestMode}
    (domain : Domain) (item : ItemId) (values : List RiskValueRef) :
    FailsOnly (ApplyError.Expected plan mode) (domain.checkRiskValues item values) := by
  induction values with
  | nil => exact .of_ok rfl
  | cons v rest ih =>
    unfold checkRiskValues
    split
    · exact .error (.invalidRiskValue _ _ _)
    · exact ih

/-! ## Wiring -/

/-- The workspace of a plan whose elements were all created. -/
structure Workspace.Serves (ws : Workspace) (plan : IncarnationPlan) (s : Store) : Prop where
  connection : ws.connection = s.connect
  unit : ws.unit = plan.unit
  created : ∀ d ∈ plan.descriptions, d.disposition.isCreate = true →
    d.disposition.element ∈ ws.created.map (·.id)

section

variable {graph : TemplateGraph} {plan : IncarnationPlan} {mode : RequestMode} {s : Store}
  {ws ws' : Workspace} {d : IncarnationDescription} {id : ElementId}

theorem Workspace.Serves.update (serves : ws.Serves plan s) {f : Element → Element}
    (core : ∀ e, (f e).core = e.core) (h : ws.update id f = .ok ws') : ws'.Serves plan s := by
  obtain ⟨sameConnection, sameUnit⟩ := update_connection h
  refine ⟨sameConnection.trans serves.connection, sameUnit.trans serves.unit, fun d hd creates => ?_⟩
  rw [ids_of_cores (update_created_cores core h)]
  exact serves.created d hd creates

variable (backed : plan.Backed graph s mode) (hd : d ∈ plan.descriptions)
include backed hd

theorem provides_description (serves : ws.Serves plan s) : ws.Provides s d.disposition.element := by
  cases disposition : d.disposition with
  | create id isGuarded =>
    have new := serves.created d hd (by rw [disposition]; rfl)
    rw [disposition] at new
    exact .inl new
  | reuse id =>
    rw [Workspace.Provides, serves.unit]
    exact .inr (backed.reused d hd id disposition)

theorem targetElement_expected {t : ReferenceTarget} (ht : t ∈ d.targets) :
    FailsOnly (ApplyError.Expected plan mode) (plan.targetElement d t) := by
  cases t with
  | planned n =>
    rw [IncarnationPlan.targetElement, List.getElem?_eq_getElem (backed.planned d hd n ht)]
    exact .of_ok rfl
  | existing id => exact .of_ok rfl
  | unresolved item =>
    refine .error (.missingTarget d.item (backed.unresolved d hd item ht) ?_)
    exact IncarnationPlan.mem_unresolved.mpr ⟨d, hd, ht⟩

theorem provides_target (serves : ws.Serves plan s) {t : ReferenceTarget} (ht : t ∈ d.targets)
    (h : plan.targetElement d t = .ok id) : ws.Provides s id := by
  cases t with
  | planned n =>
    have inPlan := List.getElem?_eq_getElem (backed.planned d hd n ht)
    simp only [IncarnationPlan.targetElement, inPlan] at h
    cases h
    exact provides_description backed (List.getElem_mem _) serves
  | existing id =>
    cases h
    rw [Workspace.Provides, serves.unit]
    exact .inr (backed.existing d hd id ht)
  | unresolved item => cases h

end

/-! ### References -/

namespace Wiring

section

variable {graph : TemplateGraph} {mode : RequestMode} {s : Store} {ws : Workspace} {x : Wiring}
  {r : ResolvedReference}

theorem target_mem_targets (hr : r ∈ x.description.references) : r.target ∈ x.description.targets :=
  List.mem_flatMap.mpr ⟨r, hr, List.mem_cons_self⟩

theorem auxiliary_mem_targets (hr : r ∈ x.description.references) {role : AuxiliaryRole}
    {a : AuxiliaryTarget} (named : r.auxiliary? role = some a) :
    a.target ∈ x.description.targets :=
  List.mem_flatMap.mpr ⟨r, hr,
    List.mem_cons_of_mem _ (List.mem_map_of_mem (List.mem_of_find?_eq_some named))⟩

variable (backed : x.plan.Backed graph s mode) (hd : x.description ∈ x.plan.descriptions)
  (hr : r ∈ x.description.references)
include backed hd hr

theorem auxiliary_expected (role : AuxiliaryRole) :
    FailsOnly (ApplyError.Expected x.plan mode) (x.auxiliary r role) := by
  unfold auxiliary IncarnationPlan.auxiliaryElement
  split
  · next a named => exact (targetElement_expected backed hd (auxiliary_mem_targets hr named)).map _
  · exact .of_ok rfl

variable (serves : ws.Serves x.plan s)
include serves

theorem provides_auxiliary {role : AuxiliaryRole} {found : Option ElementId}
    (h : x.auxiliary r role = .ok found) : ∀ id, found = some id → ws.Provides s id := by
  unfold auxiliary IncarnationPlan.auxiliaryElement at h
  split at h
  · next a named =>
    obtain ⟨id, target, rfl⟩ := except_map_eq_ok.mp h
    intro _ same
    cases same
    exact provides_target backed hd serves (auxiliary_mem_targets hr named) target
  · cases h
    exact fun _ => nofun

theorem risk_expected {scenario : ElementId} (hs : ws.Provides s scenario)
    (values : List RiskValueRef) :
    FailsOnly (ApplyError.Expected x.plan mode) (x.risk ws r scenario values) := by
  have origin : ws.Provides s x.origin := provides_description backed hd serves
  have plain := serves.connection
  refine (Workspace.requireRiskAffected_expected plain origin).bind fun _ _ => ?_
  refine (Workspace.requireType_expected plain hs _ _).bind fun _ _ => ?_
  refine (auxiliary_expected backed hd hr _).bind fun owner howner => ?_
  have provided := provides_auxiliary backed hd hr serves howner
  refine (Workspace.requireTypeIf_expected plain provided _ _).bind fun _ _ => ?_
  refine (auxiliary_expected backed hd hr _).bind fun mitigation hmitigation => ?_
  have provided' := provides_auxiliary backed hd hr serves hmitigation
  refine (Workspace.requireTypeIf_expected plain provided' _ _).bind fun _ _ => ?_
  refine (Domain.checkRiskValues_expected _ _ _).bind fun _ _ => ?_
  exact Workspace.update_expected plain origin _

theorem implementation_expected {control : ElementId} (hc : ws.Provides s control)
    (role : String) :
    FailsOnly (ApplyError.Expected x.plan mode) (x.implementation ws r control role) := by
  have origin : ws.Provides s x.origin := provides_description backed hd serves
  have plain := serves.connection
  refine (Workspace.requireRiskAffected_expected plain origin).bind fun _ _ => ?_
  refine (Workspace.requireType_expected plain hc _ _).bind fun _ _ => ?_
  refine (auxiliary_expected backed hd hr _).bind fun responsible hresponsible => ?_
  have provided := provides_auxiliary backed hd hr serves hresponsible
  refine (Workspace.requireTypeIf_expected plain provided _ _).bind fun _ _ => ?_
  exact .of_ok rfl

theorem wire_expected : FailsOnly (ApplyError.Expected x.plan mode) (x.wire ws r) := by
  have origin : ws.Provides s x.origin := provides_description backed hd serves
  have plain := serves.connection
  refine (targetElement_expected backed hd (target_mem_targets hr)).bind fun target found => ?_
  have provided := provides_target backed hd serves (target_mem_targets hr) found
  split
  · exact .of_ok rfl
  · exact .of_ok rfl
  · refine (Workspace.element_expected plain provided).bind fun _ _ => ?_
    exact Workspace.update_expected plain origin _
  · exact Workspace.update_expected plain provided _
  · exact Workspace.addPart_expected plain origin provided
  · exact Workspace.addPart_expected plain provided origin
  · exact Workspace.addMember_expected plain provided origin
  · exact Workspace.addMember_expected plain origin provided
  · exact risk_expected backed hd hr serves provided _
  · refine (implementation_expected backed hd hr serves provided _).bind fun _ _ => ?_
    exact Workspace.update_expected plain origin _
  · refine (implementation_expected backed hd hr serves provided _).bind fun _ _ => ?_
    exact Workspace.update_expected plain origin _

end

end Wiring

/-! ## The batch -/

namespace Application

section

variable {a : Application} {s : Store} {mode : RequestMode} {ws : Workspace}
  (backed : a.plan.Backed a.graph s mode)
include backed

theorem wireReferences_expected {d : IncarnationDescription} (hd : d ∈ a.plan.descriptions)
    (creates : d.disposition.isCreate = true) {rs : List ResolvedReference}
    (sub : rs ⊆ d.references) (serves : ws.Serves a.plan s) :
    FailsOnly (ApplyError.Expected a.plan mode) (wireReferences ⟨a.domain, a.plan, d⟩ ws rs) ∧
      ∀ ws', wireReferences ⟨a.domain, a.plan, d⟩ ws rs = .ok ws' → ws'.Serves a.plan s := by
  induction rs generalizing ws with
  | nil => exact ⟨.of_ok rfl, fun _ same => by cases same; exact serves⟩
  | cons r rest ih =>
    obtain ⟨hr, sub'⟩ := List.cons_subset.mp sub
    have served {mid : Workspace} (wired : Wiring.wire ⟨a.domain, a.plan, d⟩ ws r = .ok mid) :
        mid.Serves a.plan s := by
      rcases Wiring.wire_cases (serves.created d hd creates) wired with
        ⟨-, rfl⟩ | ⟨_, m, -, -, updated⟩
      · exact serves
      · exact serves.update (Amendment.core_apply m) updated
    refine ⟨(Wiring.wire_expected backed hd hr serves).bind fun mid wired =>
      (ih sub' (served wired)).1, fun ws' h => ?_⟩
    obtain ⟨mid, wired, behind⟩ := except_bind_eq_ok.mp h
    exact (ih sub' (served wired)).2 ws' behind

theorem wireAll_expected {ds : List IncarnationDescription} (sub : ds ⊆ a.plan.descriptions)
    (serves : ws.Serves a.plan s) :
    FailsOnly (ApplyError.Expected a.plan mode) (a.wireAll ws ds) := by
  induction ds generalizing ws with
  | nil => exact .of_ok rfl
  | cons d rest ih =>
    obtain ⟨hd, sub'⟩ := List.cons_subset.mp sub
    unfold wireAll
    split
    · next creates =>
      obtain ⟨expected, served⟩ :=
        wireReferences_expected backed hd creates (List.Subset.refl _) serves
      exact expected.bind fun mid wired => ih sub' (served mid wired)
    · exact ih sub' serves

theorem createAll_expected {ds : List IncarnationDescription} (sub : ds ⊆ a.plan.descriptions)
    (guards : List IncarnationGuard) :
    FailsOnly (ApplyError.Expected a.plan mode) (a.createAll ws guards ds) := by
  induction ds generalizing ws guards with
  | nil => exact .of_ok rfl
  | cons d rest ih =>
    obtain ⟨hd, sub'⟩ := List.cons_subset.mp sub
    unfold createAll
    split
    · exact ih sub' _
    · split
      · next missing =>
        have exists_item := backed.items d hd
        rw [missing] at exists_item
        cases exists_item
      · next item _ =>
        have instantiated (id : ElementId) : FailsOnly (ApplyError.Expected a.plan mode)
            (a.domain.instantiate item id a.plan.unit) := by
          unfold Domain.instantiate
          split
          · exact .of_ok rfl
          · split
            · exact .of_ok rfl
            · exact .error (.invalidSubType _ _ _)
        exact (instantiated _).bind fun _ _ => ih sub' _

variable (plain : a.connection = s.connect) (sameDomain : a.plan.domain = a.domain.id)
  (distinct : (allocated a.plan.descriptions).Nodup)
include distinct

theorem fault?_of_backed : a.plan.fault? = none := by
  refine IncarnationPlan.fault?_eq_none_iff.mpr ⟨?_, fun d hd n hn => ?_⟩
  · exact List.pairwise_filter.mp (List.pairwise_map.mp distinct)
  · obtain ⟨t, ht, position⟩ := List.mem_filterMap.mp hn
    cases t with
    | planned n' =>
      cases position
      exact backed.planned d hd n ht
    | existing | unresolved => cases position

include plain sameDomain

theorem check_expected : FailsOnly (ApplyError.Expected a.plan mode) a.check := by
  have found : a.connection.findUnit a.plan.unit = .ok (s.unit? a.plan.unit) := by
    rw [plain]
    rfl
  unfold check
  rw [if_neg (not_not.mpr sameDomain), found, fault?_of_backed backed distinct]
  cases s.unit? a.plan.unit with
  | none => exact .error (.unitNotFound _)
  | some unit =>
    simp only
    split
    · exact .error (.unitNotInDomain _ _)
    · exact .of_ok rfl

theorem computeBatch_expected : FailsOnly (ApplyError.Expected a.plan mode) a.computeBatch := by
  have ordered : a.plan.inCreationOrder ⊆ a.plan.descriptions := fun _ =>
    IncarnationPlan.mem_inCreationOrder.mp
  unfold computeBatch
  refine (check_expected backed plain sameDomain distinct).bind fun _ _ => ?_
  refine (createAll_expected backed ordered []).bind fun result instantiated => ?_
  obtain ⟨ws, guards⟩ := result
  obtain ⟨reached, ⟨new, created, creates⟩, -⟩ := createAll_reached .start
    (IncarnationPlan.inCreationOrder_apart (fault?_of_backed backed distinct))
    (fun _ _ _ => List.not_mem_nil) instantiated
  obtain ⟨sameConnection, sameUnit⟩ := reached.connection_eq
  have serves : ws.Serves a.plan s := by
    refine ⟨sameConnection.trans plain, sameUnit, fun d hd creating => ?_⟩
    rw [created, List.nil_append, ids_of_creates creates]
    exact List.mem_map_of_mem
      (List.mem_filter.mpr ⟨IncarnationPlan.mem_inCreationOrder.mpr hd, creating⟩)
  exact (wireAll_expected backed ordered serves).bind fun _ _ => .of_ok rfl

end

section

variable {a : Application} {s : Store} {mode : RequestMode} {ws : Workspace} {b : Batch}
  (backed : a.plan.Backed a.graph s mode) (plain : a.connection = s.connect)

include backed in
/-- Where a guard stands, the look-up has found no element that would violate it. -/
theorem Derives.unguarded (derives : a.Derives ws b) :
    ∀ g ∈ b.guards, ∀ e ∈ s.elementsOf b.unit b.domain, g.isViolatedBy e = false := by
  intro g hg e he
  rw [derives.guards] at hg
  rw [derives.unit, derives.domain, ← derives.sameDomain] at he
  obtain ⟨d, ordered, guard⟩ := List.mem_filterMap.mp hg
  have hd := IncarnationPlan.mem_inCreationOrder.mp ordered
  unfold guardOf? at guard
  split at guard
  · next id create =>
    obtain ⟨item, got, guard⟩ := Option.bind_eq_some_iff.mp guard
    exact backed.unguarded d hd id create item got g guard e he
  · cases guard
  · cases guard

include backed plain in
/-- New elements are new to the store, and no guard is violated, so only names can clash. -/
theorem commit_expected (h : a.computeBatch = .ok b)
    (new : ∀ id ∈ allocated a.plan.descriptions, id ∉ s.elements.rows.map (·.id))
    {e : RepositoryError} (failed : s.commit b = .error e) :
    ApplyError.Expected a.plan mode (.repository e) := by
  obtain ⟨ws, derives⟩ := computeBatch_derives h
  have exists_unit : s.units.contains b.unit = true := by
    obtain ⟨-, ⟨unit, found, -⟩, -⟩ := check_eq_ok_iff.mp (check_of_computeBatch h)
    rw [plain] at found
    rw [derives.unit]
    exact Option.isSome_of_eq_some (Except.ok.inj found)
  have fresh : ∀ e ∈ b.created, e.id ∉ s.elements.rows.map (·.id) := by
    intro e he
    obtain ⟨d, hd, creates, created⟩ := origin_of_creates derives.creates he
    rw [← created.element]
    exact new _ (List.mem_map_of_mem (List.mem_filter.mpr ⟨hd, creates⟩))
  have present : ∀ e ∈ b.modified, e.id ∈ s.elements.rows.map (·.id) := by
    intro m hm
    rw [derives.modified] at hm
    obtain ⟨x, hx, -, grown⟩ := derives.reached.modified_origin plain hm
    rw [grown.id_eq]
    exact List.mem_map_of_mem hx
  unfold Store.commit at failed
  rw [Store.violation?_eq_nameViolation? exists_unit fresh present (derives.unguarded backed)]
    at failed
  split at failed
  · next violation clash =>
    cases failed
    obtain ⟨name, rfl⟩ := Store.nameViolation?_eq_some clash
    exact .duplicateName _ _
  · cases failed

end

end Application

/-- A plan that was just resolved is applied, or it is refused for one of the expected reasons. -/
theorem run_of_resolved (graph : TemplateGraph) (domain : Domain) (s : Store)
    (fresh : Nat → ElementId) (request : IncarnationRequest) (options : ResolveOptions)
    (plan : IncarnationPlan) (forDomain : request.domain = domain.id)
    (resolved : resolve graph s.connect fresh request options = .ok plan)
    (distinct : (allocated plan.descriptions).Nodup)
    (new : ∀ id ∈ allocated plan.descriptions, id ∉ s.elements.rows.map (·.id)) :
    (∃ result, Application.run ⟨s.connect, graph, domain, plan⟩ = .ok result) ∨
      ∃ e, Application.run ⟨s.connect, graph, domain, plan⟩ = .error e ∧
        e.Expected plan options.mode := by
  have backed := resolve_backed resolved
  have sameDomain : plan.domain = domain.id := by
    obtain ⟨-, -, reused, -, rfl⟩ := resolve_eq_ok resolved
    exact forDomain
  unfold Application.run
  cases computed : Application.computeBatch ⟨s.connect, graph, domain, plan⟩ with
  | error e =>
    exact .inr ⟨e, rfl,
      Application.computeBatch_expected backed rfl sameDomain distinct e computed⟩
  | ok batch =>
    simp only [bind, Except.bind, Store.connect_commit]
    cases committed : s.commit batch with
    | ok s' => exact .inl ⟨_, rfl⟩
    | error e =>
      exact .inr ⟨.repository e, rfl,
        Application.commit_expected (a := ⟨s.connect, graph, domain, plan⟩) backed rfl computed new
          committed⟩

/-- In manual mode the target of a link is not planned, and it has no incarnation either. -/
theorem run_of_resolved_link :
    let domain : Domain := .ofTemplate ⟨⟨1⟩⟩ { id := ⟨⟨0⟩⟩, name := "template", version := {} }
    let item (n : Nat) (references : List TailoringReference) : TemplateItem :=
      { id := ⟨⟨n⟩⟩, nspace := domain.nspace, name := "item", elementType := .asset, references }
    let origin := item 10 [⟨⟨⟨20⟩⟩, ⟨⟨11⟩⟩, .plainLink "uses"⟩]
    let target := item 11 []
    let graph : TemplateGraph := ⟨[origin, target], by decide⟩
    let s : Store := { units := .ofList [⟨⟨⟨2⟩⟩, "unit", [domain.id]⟩] }
    let request : IncarnationRequest := { unit := ⟨⟨2⟩⟩, domain := domain.id, items := [origin.id] }
    let options : ResolveOptions := { mode := .manual, lookup := .always }
    let fresh (n : Nat) : ElementId := ⟨⟨n + 50⟩⟩
    ∃ plan, resolve graph s.connect fresh request options = .ok plan ∧
      (allocated plan.descriptions).Nodup ∧
      (∀ id ∈ allocated plan.descriptions, id ∉ s.elements.rows.map (·.id)) ∧
      Application.run ⟨s.connect, graph, domain, plan⟩ =
        .error (.missingTarget target.id origin.id) ∧
      ((∃ result, Application.run ⟨s.connect, graph, domain, plan⟩ = .ok result) ∨
        ∃ e, Application.run ⟨s.connect, graph, domain, plan⟩ = .error e ∧
          e.Expected plan options.mode) := by
  intro domain item origin target graph s request options fresh
  let plan : IncarnationPlan := {
    unit := request.unit
    domain := domain.id
    lookup := .always
    descriptions := [
      { item := origin.id
        requested := true
        disposition := .create (fresh 0) true
        references := [⟨⟨⟨20⟩⟩, target.id, .plainLink "uses", .unresolved target.id, []⟩] }]
    creationOrder := [0] }
  have resolved : resolve graph s.connect fresh request options = .ok plan := by decide +kernel
  have distinct : (allocated plan.descriptions).Nodup := List.nodup_singleton _
  have new : ∀ id ∈ allocated plan.descriptions, id ∉ s.elements.rows.map (·.id) :=
    fun _ _ => List.not_mem_nil
  exact ⟨plan, resolved, distinct, new, rfl,
    run_of_resolved graph domain s fresh request options plan rfl resolved distinct new⟩

end TemplateCatalog
