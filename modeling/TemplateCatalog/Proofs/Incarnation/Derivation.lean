import TemplateCatalog.Incarnation.Apply
import TemplateCatalog.Proofs.Incarnation.Wiring
import TemplateCatalog.Proofs.Plan.CreationOrder

/-!
# How an application reaches its batch

`Application.Reached` is the reachability relation of workspaces under one
application: from an empty workspace, a step creates an element under an
identifier that no other new element has, or amends an element after the checks
of the amendment. What holds of the empty workspace and is kept by both steps
holds of the batch.

Results:
1. `IncarnationPlan.inCreationOrder_apart`: a plan without a structural fault
   creates every element once.
2. `Reached.tracked`: every reached workspace is tracked.
3. `createAll_bare`: when all elements are created, none has a relation yet.
4. `computeBatch_derives`: a batch holds the elements of a reached workspace. New
   elements and guards are those of the creating descriptions.
-/

namespace TemplateCatalog

/-! ## Plans without a fault -/

/-- Two descriptions do not create the same element. -/
def IncarnationDescription.Apart (d d' : IncarnationDescription) : Prop :=
  d.disposition.isCreate = true → d'.disposition.isCreate = true →
    d.disposition.element ≠ d'.disposition.element

namespace IncarnationPlan

variable {plan : IncarnationPlan}

theorem faultFrom?_eq_none_iff {allocated : List ElementId} {ds : List IncarnationDescription} :
    plan.faultFrom? allocated ds = none ↔
      ds.Pairwise IncarnationDescription.Apart ∧
        (∀ d ∈ ds, d.disposition.isCreate = true → d.disposition.element ∉ allocated) ∧
        ∀ d ∈ ds, ∀ t ∈ d.plannedTargets, t < plan.descriptions.length := by
  induction ds generalizing allocated with
  | nil => simp [faultFrom?]
  | cons d rest ih =>
    simp only [faultFrom?, List.pairwise_cons, List.forall_mem_cons]
    by_cases twice : (d.disposition.isCreate && allocated.contains d.disposition.element) = true
    · rw [if_pos twice]
      simp only [Bool.and_eq_true, List.contains_iff_mem] at twice
      exact ⟨nofun, fun ⟨_, ⟨fresh, _⟩, _⟩ => absurd twice.2 (fresh twice.1)⟩
    rw [if_neg twice]
    by_cases past : d.plannedTargets.any (plan.descriptions.length ≤ ·) = true
    · rw [if_pos past]
      obtain ⟨t, ht, beyond⟩ := List.any_eq_true.mp past
      exact ⟨nofun, fun ⟨_, _, inPlan, _⟩ =>
        absurd (inPlan t ht) (Nat.not_lt.mpr (of_decide_eq_true beyond))⟩
    rw [if_neg past, ih]
    simp only [Bool.and_eq_true, List.contains_iff_mem, not_and] at twice
    have inPlan : ∀ t ∈ d.plannedTargets, t < plan.descriptions.length := by
      simpa [List.any_eq_true] using past
    constructor
    · rintro ⟨apart, fresh, targets⟩
      refine ⟨⟨fun d' hd' creates creates' same => ?_, apart⟩, ⟨twice, fun d' hd' creates' old => ?_⟩,
        inPlan, targets⟩
      · have behind := fresh d' hd' creates'
        rw [if_pos creates] at behind
        exact behind (same ▸ List.mem_cons_self)
      · refine fresh d' hd' creates' ?_
        split
        · exact List.mem_cons_of_mem _ old
        · exact old
    · rintro ⟨⟨apartHead, apart⟩, ⟨-, fresh⟩, -, targets⟩
      refine ⟨apart, fun d' hd' creates' old => ?_, targets⟩
      split at old
      · next creates =>
        rcases List.mem_cons.mp old with same | old
        · exact apartHead d' hd' creates creates' same.symm
        · exact fresh d' hd' creates' old
      · exact fresh d' hd' creates' old

theorem fault?_eq_none_iff : plan.fault? = none ↔
    plan.descriptions.Pairwise IncarnationDescription.Apart ∧
      ∀ d ∈ plan.descriptions, ∀ t ∈ d.plannedTargets, t < plan.descriptions.length := by
  rw [fault?, faultFrom?_eq_none_iff]
  simp

theorem mem_inCreationOrder {d : IncarnationDescription} :
    d ∈ plan.inCreationOrder ↔ d ∈ plan.descriptions :=
  (perm_of_creationOrder plan.descriptions).mem_iff

/-- Positions without repetition give descriptions that stay apart. -/
theorem inCreationOrder_apart (h : plan.fault? = none) :
    plan.inCreationOrder.Pairwise IncarnationDescription.Apart := by
  have apart := List.pairwise_iff_getElem.mp (fault?_eq_none_iff.mp h).1
  unfold inCreationOrder
  refine List.pairwise_filterMap.mpr ((creationOrder_nodup plan.descriptions).imp ?_)
  intro i j different d hd d' hd'
  obtain ⟨hi, rfl⟩ := List.getElem?_eq_some_iff.mp hd
  obtain ⟨hj, rfl⟩ := List.getElem?_eq_some_iff.mp hd'
  -- to be apart is symmetric, so it does not matter which position comes first in the plan
  rcases Nat.lt_or_gt_of_ne different with lt | gt
  · exact apart i j hi hj lt
  · intro creates creates' same
    exact apart j i hj hi gt creates' creates same.symm

end IncarnationPlan

/-! ## Instantiation -/

theorem Domain.instantiate_eq_ok {domain : Domain} {item : TemplateItem} {id : ElementId}
    {unit : UnitId} {e : Element} (h : domain.instantiate item id unit = .ok e) :
    e = item.toElement id unit domain.id ∧
      ∀ subType, item.subType = some subType → domain.definesSubType item subType = true := by
  unfold instantiate at h
  split at h
  · next none =>
    cases h
    exact ⟨rfl, fun _ some => nomatch none.symm.trans some⟩
  · next subType given =>
    split at h
    · next defined =>
      cases h
      refine ⟨rfl, fun other given' => ?_⟩
      cases given.symm.trans given'
      exact defined
    · cases h

/-! ## Reached workspaces -/

namespace Application

open Workspace

variable {a : Application} {ws ws' : Workspace}

inductive Reached (a : Application) : Workspace → Prop
  | start : Reached a { connection := a.connection, unit := a.plan.unit }
  | create {ws : Workspace} {item : TemplateItem} {id : ElementId} {e : Element} :
      Reached a ws → a.domain.instantiate item id a.plan.unit = .ok e →
      id ∉ ws.created.map (·.id) → Reached a (ws.create e)
  | amend {ws ws' : Workspace} {holder : ElementId} {m : Amendment} :
      Reached a ws → Admitted a.domain ws holder m → ws.update holder m.apply = .ok ws' →
      Reached a ws'

theorem Reached.connection_eq (h : Reached a ws) :
    ws.connection = a.connection ∧ ws.unit = a.plan.unit := by
  induction h with
  | start => exact ⟨rfl, rfl⟩
  | create _ _ _ ih => exact ih
  | amend _ _ updated ih =>
    obtain ⟨sameConnection, sameUnit⟩ := update_connection updated
    exact ⟨sameConnection.trans ih.1, sameUnit.trans ih.2⟩

theorem Reached.tracked (h : Reached a ws) : ws.Tracked := by
  induction h with
  | start => exact ⟨List.nodup_nil, List.nodup_nil, fun _ => nofun, fun _ => nofun⟩
  | create reached made fresh ih =>
    obtain ⟨rfl, -⟩ := Domain.instantiate_eq_ok made
    exact ih.create fresh reached.connection_eq.2.symm
  | amend _ admitted updated ih =>
    refine ih.update (Amendment.core_apply _) (fun old e => ?_) updated
    rcases admitted.open_or_new with isOpen | new
    · exact Amendment.grows_apply isOpen e
    · exact absurd new (find?_eq_none_iff.mp old)

theorem Reached.modified_origin {s : Store} {m : Element} (h : Reached a ws)
    (plain : a.connection = s.connect) (hm : m ∈ ws.modified) :
    ∃ e ∈ s.elements.rows, e.owner = a.plan.unit ∧ e.Grows m := by
  obtain ⟨sameConnection, sameUnit⟩ := h.connection_eq
  obtain ⟨e, he, owned, grown⟩ := h.tracked.modified_origin m hm
  rw [sameConnection, plain] at he
  exact ⟨e, he, owned.trans sameUnit, grown⟩

/-! ## The two phases -/

/-- The element is made from the item of a creating description, apart from its relations. -/
def Creates (a : Application) (d : IncarnationDescription) (e : Element) : Prop :=
  ∃ item isGuarded, d.disposition = .create e.id isGuarded ∧ a.graph.get? d.item = some item ∧
    e.core = item.toElement e.id a.plan.unit a.domain.id

/-- The guard that goes with a description. -/
def guardOf? (a : Application) (d : IncarnationDescription) : Option IncarnationGuard :=
  match d.disposition with
  | .create _ true => (a.graph.get? d.item).bind a.plan.guardFor?
  | .create _ false | .reuse _ => none

namespace Creates

variable {d : IncarnationDescription} {e : Element}

theorem isCreate (h : a.Creates d e) : d.disposition.isCreate = true := by
  obtain ⟨item, isGuarded, disposition, -⟩ := h
  rw [disposition]
  rfl

theorem element (h : a.Creates d e) : d.disposition.element = e.id := by
  obtain ⟨item, isGuarded, disposition, -⟩ := h
  rw [disposition]
  rfl

/-- A new element belongs to the unit and the domain, and it is tagged with its item. -/
theorem place (h : a.Creates d e) : e.owner = a.plan.unit ∧ e.domain = a.domain.id := by
  obtain ⟨item, isGuarded, -, -, core⟩ := h
  exact ⟨congrArg Element.owner core, congrArg Element.domain core⟩

theorem tag (h : a.Creates d e) {item : TemplateItem} (found : a.graph.get? d.item = some item) :
    e.appliedItem = item.applied?.map fun applied => ⟨applied, item.version⟩ := by
  obtain ⟨other, isGuarded, -, found', core⟩ := h
  cases found.symm.trans found'
  exact congrArg Element.appliedItem core

end Creates

theorem ids_of_creates {ds : List IncarnationDescription} {es : List Element}
    (h : List.Forall₂ a.Creates ds es) : es.map (·.id) = ds.map (·.disposition.element) := by
  induction h with
  | nil => rfl
  | cons created _ ih =>
    rw [List.map_cons, List.map_cons, ih, created.element]

/-- A new element comes from a creating description of the plan. -/
theorem origin_of_creates {es : List Element} {e : Element}
    (h : List.Forall₂ a.Creates (a.plan.inCreationOrder.filter (·.disposition.isCreate)) es)
    (he : e ∈ es) : ∃ d ∈ a.plan.descriptions, d.disposition.isCreate = true ∧ a.Creates d e := by
  obtain ⟨d, hd, created⟩ := forall₂_mem_right h he
  obtain ⟨ordered, creates⟩ := List.mem_filter.mp hd
  exact ⟨d, IncarnationPlan.mem_inCreationOrder.mp ordered, creates, created⟩

/-- Only the cores of elements matter for what created them. -/
theorem creates_of_cores {ds : List IncarnationDescription} {es es' : List Element}
    (h : List.Forall₂ a.Creates ds es) (cores : es'.map Element.core = es.map Element.core) :
    List.Forall₂ a.Creates ds es' := by
  have ofCores : List.Forall₂ a.Creates ds (es.map Element.core) :=
    List.forall₂_map_right_iff.mpr h
  rw [← cores, List.forall₂_map_right_iff] at ofCores
  exact ofCores

/-- A description that creates has its item instantiated, and its guard is collected. -/
theorem createAll_cons_cases {guards : List IncarnationGuard} {d : IncarnationDescription}
    {rest : List IncarnationDescription} {result : Workspace × List IncarnationGuard}
    (h : a.createAll ws guards (d :: rest) = .ok result) :
    (d.disposition.isCreate = false ∧ a.guardOf? d = none ∧
        a.createAll ws guards rest = .ok result) ∨
      ∃ item e, a.Creates d e ∧ a.domain.instantiate item e.id a.plan.unit = .ok e ∧
        a.createAll (ws.create e) (guards ++ (a.guardOf? d).toList) rest = .ok result := by
  unfold createAll at h
  unfold guardOf?
  cases hd : d.disposition with
  | reuse id =>
    simp only [hd] at h
    exact .inl ⟨rfl, rfl, h⟩
  | create id isGuarded =>
    simp only [hd] at h
    split at h
    · cases h
    · next item found =>
      obtain ⟨e, made, h⟩ := except_bind_eq_ok.mp h
      obtain ⟨rfl, -⟩ := Domain.instantiate_eq_ok made
      refine .inr ⟨item, item.toElement id a.plan.unit a.domain.id,
        ⟨item, isGuarded, hd, found, rfl⟩, made, ?_⟩
      rw [← h]
      cases isGuarded with
      | false => rfl
      | true => simp [found]

/-- Creation gives every creating description its element, in order. -/
theorem createAll_reached {guards guards' : List IncarnationGuard}
    {ds : List IncarnationDescription} (reached : Reached a ws)
    (apart : ds.Pairwise IncarnationDescription.Apart)
    (fresh : ∀ d ∈ ds, d.disposition.isCreate = true →
      d.disposition.element ∉ ws.created.map (·.id))
    (h : a.createAll ws guards ds = .ok (ws', guards')) :
    Reached a ws' ∧
      (∃ new, ws'.created = ws.created ++ new ∧
        List.Forall₂ a.Creates (ds.filter (·.disposition.isCreate)) new) ∧
      guards' = guards ++ ds.filterMap a.guardOf? := by
  induction ds generalizing ws guards with
  | nil =>
    cases h
    exact ⟨reached, ⟨[], (List.append_nil _).symm, .nil⟩, (List.append_nil _).symm⟩
  | cons d rest ih =>
    obtain ⟨apartFrom, apartRest⟩ := List.pairwise_cons.mp apart
    obtain ⟨freshHead, freshRest⟩ := List.forall_mem_cons.mp fresh
    rcases createAll_cons_cases h with ⟨reuses, unguarded, h⟩ | ⟨item, e, made, instantiated, h⟩
    · rw [List.filter_cons, reuses, if_neg Bool.false_ne_true, List.filterMap_cons, unguarded]
      exact ih reached apartRest freshRest h
    · have ids : (ws.create e).created.map (·.id) = ws.created.map (·.id) ++ [e.id] :=
        List.map_append
      have freshBehind : ∀ d' ∈ rest, d'.disposition.isCreate = true →
          d'.disposition.element ∉ (ws.create e).created.map (·.id) := by
        intro d' hd' creates
        rw [ids, List.mem_append, List.mem_singleton, not_or]
        have differ := apartFrom d' hd' made.isCreate creates
        rw [made.element] at differ
        exact ⟨freshRest d' hd' creates, differ.symm⟩
      have newHead := freshHead made.isCreate
      rw [made.element] at newHead
      obtain ⟨reached', ⟨new, created, creates⟩, guarded⟩ :=
        ih (reached.create instantiated newHead) apartRest freshBehind h
      refine ⟨reached', ⟨e :: new, ?_, ?_⟩, ?_⟩
      · rw [created, create, List.append_assoc, List.singleton_append]
      · rw [List.filter_cons, made.isCreate, if_pos rfl]
        exact .cons made creates
      · rw [guarded, List.append_assoc, List.filterMap_cons]
        cases a.guardOf? d with
        | none => rfl
        | some g => rfl

/-- Creation adds elements without relations, and it changes no stored element. -/
theorem createAll_bare {guards guards' : List IncarnationGuard} {ds : List IncarnationDescription}
    (bare : ∀ e ∈ ws.created, e.core = e) (h : a.createAll ws guards ds = .ok (ws', guards')) :
    (∀ e ∈ ws'.created, e.core = e) ∧ ws'.modified = ws.modified := by
  induction ds generalizing ws guards with
  | nil =>
    cases h
    exact ⟨bare, rfl⟩
  | cons d rest ih =>
    rcases createAll_cons_cases h with ⟨-, -, h⟩ | ⟨item, e, -, instantiated, h⟩
    · exact ih bare h
    · obtain ⟨same, -⟩ := Domain.instantiate_eq_ok instantiated
      have bareHead : e.core = e := by
        rw [same]
        rfl
      have bareAll : ∀ x ∈ (ws.create e).created, x.core = x :=
        List.forall_mem_append.mpr ⟨bare, List.forall_mem_singleton.mpr bareHead⟩
      obtain ⟨bare', modified⟩ := ih bareAll h
      exact ⟨bare', modified⟩

theorem wireReferences_reached {x : Wiring} {rs : List ResolvedReference}
    (domain : x.domain = a.domain) (reached : Reached a ws)
    (new : x.origin ∈ ws.created.map (·.id)) (h : wireReferences x ws rs = .ok ws') :
    Reached a ws' ∧ ws'.created.map Element.core = ws.created.map Element.core := by
  induction rs generalizing ws with
  | nil =>
    cases h
    exact ⟨reached, rfl⟩
  | cons r rest ih =>
    obtain ⟨mid, wired, behind⟩ := except_bind_eq_ok.mp h
    rcases Wiring.wire_cases new wired with ⟨-, rfl⟩ | ⟨holder, m, -, admitted, updated⟩
    · exact ih reached new behind
    · have cores := update_created_cores (Amendment.core_apply m) updated
      rw [domain] at admitted
      rw [← ids_of_cores cores] at new
      obtain ⟨reached', cores'⟩ := ih (reached.amend admitted updated) new behind
      exact ⟨reached', cores'.trans cores⟩

theorem wireAll_reached {ds : List IncarnationDescription} (reached : Reached a ws)
    (new : ∀ d ∈ ds, d.disposition.isCreate = true →
      d.disposition.element ∈ ws.created.map (·.id))
    (h : a.wireAll ws ds = .ok ws') :
    Reached a ws' ∧ ws'.created.map Element.core = ws.created.map Element.core := by
  induction ds generalizing ws with
  | nil =>
    cases h
    exact ⟨reached, rfl⟩
  | cons d rest ih =>
    obtain ⟨newHead, newRest⟩ := List.forall_mem_cons.mp new
    unfold wireAll at h
    split at h
    · next creates =>
      obtain ⟨mid, wired, h⟩ := except_bind_eq_ok.mp h
      obtain ⟨reached', cores⟩ :=
        wireReferences_reached (x := ⟨a.domain, a.plan, d⟩) rfl reached (newHead creates) wired
      rw [← ids_of_cores cores] at newRest
      obtain ⟨reached'', cores'⟩ := ih reached' newRest h
      exact ⟨reached'', cores'.trans cores⟩
    · exact ih reached newRest h

/-! ## The batch -/

theorem check_eq_ok_iff : a.check = .ok () ↔
    a.plan.domain = a.domain.id ∧
      (∃ unit, a.connection.findUnit a.plan.unit = .ok (some unit) ∧
        unit.isAssociatedWith a.domain.id = true) ∧
      a.plan.fault? = none := by
  unfold check
  by_cases sameDomain : a.plan.domain = a.domain.id
  · rw [if_neg (not_not.mpr sameDomain)]
    cases found : a.connection.findUnit a.plan.unit with
    | error e => simp
    | ok answer =>
      cases answer with
      | none => simp
      | some unit =>
        cases associated : unit.isAssociatedWith a.domain.id with
        | false => simp [associated]
        | true =>
          cases fault : a.plan.fault? with
          | none => simp [sameDomain, associated]
          | some fault => simp [associated]
  · simp [sameDomain]

theorem check_of_computeBatch {b : Batch} (h : a.computeBatch = .ok b) : a.check = .ok () := by
  unfold computeBatch at h
  obtain ⟨⟨⟩, checked, -⟩ := except_bind_eq_ok.mp h
  exact checked

/-- The workspace between the two phases: the new elements are there, without relations. -/
structure Instantiates (a : Application) (ws : Workspace) : Prop where
  reached : a.Reached ws
  creates : List.Forall₂ a.Creates
    (a.plan.inCreationOrder.filter (·.disposition.isCreate)) ws.created
  bare : ∀ e ∈ ws.created, e.core = e
  modified : ws.modified = []

/-- When wiring starts, the element of every creating description is there. -/
theorem Instantiates.there (h : a.Instantiates ws) : ∀ d ∈ a.plan.inCreationOrder,
    d.disposition.isCreate = true → d.disposition.element ∈ ws.created.map (·.id) := by
  intro d hd creates
  rw [ids_of_creates h.creates]
  exact List.mem_map_of_mem (List.mem_filter.mpr ⟨hd, creates⟩)

/-- What a batch of an application holds, for the workspace that was reached. -/
structure Derives (a : Application) (ws : Workspace) (b : Batch) : Prop where
  sameDomain : a.plan.domain = a.domain.id
  reached : a.Reached ws
  unit : b.unit = a.plan.unit
  domain : b.domain = a.domain.id
  created : b.created = ws.created
  modified : b.modified = ws.modified
  /-- The new elements are those of the creating descriptions, in creation order. -/
  creates : List.Forall₂ a.Creates
    (a.plan.inCreationOrder.filter (·.disposition.isCreate)) b.created
  wired : ∃ start, a.Instantiates start ∧ a.wireAll start a.plan.inCreationOrder = .ok ws
  guards : b.guards = a.plan.inCreationOrder.filterMap a.guardOf?

theorem computeBatch_derives {b : Batch} (h : a.computeBatch = .ok b) : ∃ ws, a.Derives ws b := by
  unfold computeBatch at h
  obtain ⟨⟨⟩, checked, h⟩ := except_bind_eq_ok.mp h
  obtain ⟨⟨ws₁, guards⟩, instantiated, h⟩ := except_bind_eq_ok.mp h
  obtain ⟨ws₂, wired, h⟩ := except_bind_eq_ok.mp h
  cases h
  obtain ⟨sameDomain, -, noFault⟩ := check_eq_ok_iff.mp checked
  obtain ⟨reached, ⟨new, created, creates⟩, guarded⟩ := createAll_reached .start
    (IncarnationPlan.inCreationOrder_apart noFault) (fun _ _ _ => List.not_mem_nil) instantiated
  rw [List.nil_append] at created guarded
  obtain ⟨bare, modified⟩ := createAll_bare (fun _ he => absurd he List.not_mem_nil) instantiated
  have start : a.Instantiates ws₁ := ⟨reached, created ▸ creates, bare, modified⟩
  obtain ⟨reached', cores⟩ := wireAll_reached reached start.there wired
  exact ⟨ws₂, sameDomain, reached', rfl, rfl, rfl, rfl, creates_of_cores start.creates cores,
    ⟨ws₁, start, wired⟩, guarded⟩

end Application

end TemplateCatalog
