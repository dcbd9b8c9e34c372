import TemplateCatalog.Proofs.Plan.Survey

/-!
# What a request is resolved to

A plan describes the planned items of a survey in their order. Merging drops
references from descriptions and touches nothing else (`Thins`), so a plan still
tells of every item what the survey says (`Survey.Describes`).

Results:
1. `resolve_eq`, `resolve_eq_ok`: on a plain store a request is resolved
   exactly if it names items and all of them exist. The plan is that of a settled
   survey whose walk cuts exactly what is to be cut.
2. `settled_keys`, `settled_disposes`: the descriptions of that plan are the planned
   items in their order, and what becomes of them.
3. `resolve_connect`: an outage may keep a request from being resolved, and does not
   change the plan.
4. `resolve_answers`: the plan describes the closure of the requested items, each
   once, and reuses the first incarnation wherever the policy looks for one.
-/

namespace TemplateCatalog

/-! ## Merging -/

/-- The second description is the first, possibly without some of its references. -/
structure IncarnationDescription.Thins (d d' : IncarnationDescription) : Prop where
  item : d'.item = d.item
  requested : d'.requested = d.requested
  disposition : d'.disposition = d.disposition
  references : d'.references.Sublist d.references

theorem IncarnationDescription.Thins.refl (d : IncarnationDescription) : d.Thins d :=
  ⟨rfl, rfl, rfl, List.Sublist.refl _⟩

theorem IncarnationDescription.Thins.trans {d d' d'' : IncarnationDescription} (h : d.Thins d')
    (h' : d'.Thins d'') : d.Thins d'' :=
  ⟨h'.item.trans h.item, h'.requested.trans h.requested, h'.disposition.trans h.disposition,
    h'.references.trans h.references⟩

theorem keepFirst_sublist (origin : Nat) (seen : List Relation) (rs : List ResolvedReference) :
    (keepFirst origin seen rs).1.Sublist rs := by
  fun_induction keepFirst origin seen rs with
  | case1 => exact List.Sublist.refl _
  | case2 seen r rest _ _ _ kept ih => simpa [kept] using ih.cons_cons r
  | case3 seen r rest _ _ _ ih => exact ih.cons r
  | case4 seen r rest _ _ _ _ _ kept ih => simpa [kept] using ih.cons_cons r

theorem mergeFrom_thins (origin : Nat) (seen : List Relation) (ds : List IncarnationDescription) :
    List.Forall₂ IncarnationDescription.Thins ds (mergeFrom origin seen ds) := by
  induction ds generalizing origin seen with
  | nil => exact .nil
  | cons d rest ih => exact .cons ⟨rfl, rfl, rfl, keepFirst_sublist origin seen _⟩ (ih _ _)

/-! ## Descriptions -/

/-- The identifiers of the new elements. -/
def allocated (ds : List IncarnationDescription) : List ElementId :=
  (ds.filter (·.disposition.isCreate)).map (·.disposition.element)

theorem allocated_of_thins {ds ds' : List IncarnationDescription}
    (h : List.Forall₂ IncarnationDescription.Thins ds ds') : allocated ds' = allocated ds := by
  induction h with
  | nil => rfl
  | cons thins _ ih =>
    unfold allocated at ih ⊢
    simp only [List.filter_cons, thins.disposition]
    split
    · simp only [List.map_cons, thins.disposition, ih]
    · exact ih

namespace Survey

variable {v : Survey} {p : ItemId × Bool} {d : IncarnationDescription}

/-- The description tells what the survey says of a planned item, possibly without some of the
references. -/
def Describes (v : Survey) (p : ItemId × Bool) (d : IncarnationDescription) : Prop :=
  ∃ item fresh, v.walk.item? p.1 = some item ∧ (v.describe item p.2 fresh).Thins d

theorem Describes.key_eq (h : v.Describes p d) : (d.item, d.requested) = p := by
  obtain ⟨item, fresh, found, thins⟩ := h
  rw [thins.item, thins.requested]
  exact Prod.ext (TemplateGraph.id_of_getIn? found) rfl

theorem Describes.thins (h : v.Describes p d) {item : TemplateItem}
    (found : v.walk.item? d.item = some item) : ∃ new, (v.describe item d.requested new).Thins d := by
  have key := h.key_eq
  obtain ⟨other, new, found', thins⟩ := h
  cases key
  cases found.symm.trans found'
  exact ⟨new, thins⟩

/-- Planned items are described in their order. -/
theorem describeFrom_forall₂ (fresh : Nat → ElementId) (n : Nat) {planned : PlannedItems}
    (exist : ∀ p ∈ planned, (v.walk.item? p.1).isSome = true) :
    List.Forall₂ (fun p d => ∃ item new, v.walk.item? p.1 = some item ∧ v.describe item p.2 new = d)
      planned (v.describeFrom fresh n planned) := by
  induction planned generalizing n with
  | nil => exact .nil
  | cons p rest ih =>
    obtain ⟨existsHead, existRest⟩ := List.forall_mem_cons.mp exist
    obtain ⟨item, found⟩ := Option.isSome_iff_exists.mp existsHead
    unfold describeFrom
    simp only [found]
    exact .cons ⟨item, fresh n, found, rfl⟩ (ih _ existRest)

theorem describeFrom_describes (fresh : Nat → ElementId) (n : Nat) {planned : PlannedItems}
    (exist : ∀ p ∈ planned, (v.walk.item? p.1).isSome = true) :
    List.Forall₂ v.Describes planned (v.describeFrom fresh n planned) := by
  refine (describeFrom_forall₂ fresh n exist).imp fun p d => ?_
  rintro ⟨item, new, found, rfl⟩
  exact ⟨item, new, found, .refl _⟩

theorem disposition_cases (item : TemplateItem) (requested : Bool) (fresh : ElementId) :
    (∃ e, v.disposition item requested fresh = .reuse e) ∨
      ∃ isGuarded, v.disposition item requested fresh = .create fresh isGuarded := by
  unfold disposition
  split
  · cases v.existing? item with
    | some e => exact .inl ⟨e, rfl⟩
    | none => exact .inr ⟨_, rfl⟩
  · exact .inr ⟨_, rfl⟩

/-- New elements get their identifiers in turn. -/
theorem describeFrom_allocated (fresh : Nat → ElementId) (n : Nat) (planned : PlannedItems) :
    ∃ count, allocated (v.describeFrom fresh n planned) = (List.range' n count).map fresh := by
  induction planned generalizing n with
  | nil => exact ⟨0, rfl⟩
  | cons p rest ih =>
    unfold describeFrom
    split
    · exact ih n
    · next item _ =>
      obtain ⟨e, reuse⟩ | ⟨isGuarded, create⟩ := disposition_cases (v := v) item p.2 (fresh n)
      · obtain ⟨count, ids⟩ := ih n
        refine ⟨count, ?_⟩
        simpa [allocated, describe, reuse, Disposition.isCreate] using ids
      · obtain ⟨count, ids⟩ := ih (n + 1)
        refine ⟨count + 1, ?_⟩
        rw [List.range'_succ, List.map_cons]
        simpa [allocated, describe, create, Disposition.isCreate, Disposition.element] using ids

/-! ## Plans -/

/-- The descriptions after merging, if the options ask for that. -/
def merged (v : Survey) (fresh : Nat → ElementId) : List IncarnationDescription :=
  if v.walk.options.mergeBidirectional then mergeBidirectional (v.descriptions fresh)
  else v.descriptions fresh

/-- The plan that a survey gives. -/
def plan (v : Survey) (request : IncarnationRequest) (fresh : Nat → ElementId) :
    IncarnationPlan where
  unit := request.unit
  domain := request.domain
  lookup := v.walk.options.lookup
  descriptions := v.merged fresh
  creationOrder := creationOrder (v.merged fresh)
  issues := v.issues

theorem merged_thins (v : Survey) (fresh : Nat → ElementId) :
    List.Forall₂ IncarnationDescription.Thins (v.descriptions fresh) (v.merged fresh) := by
  unfold merged
  split
  · exact mergeFrom_thins 0 [] _
  · exact List.forall₂_same.mpr fun d _ => .refl d

theorem merged_describes (exist : ∀ p ∈ v.planned, (v.walk.item? p.1).isSome = true)
    (fresh : Nat → ElementId) : List.Forall₂ v.Describes v.planned (v.merged fresh) := by
  refine forall₂_comp ?_ (describeFrom_describes fresh 0 exist) (v.merged_thins fresh)
  rintro p d d' ⟨item, id, found, thins⟩ thins'
  exact ⟨item, id, found, thins.trans thins'⟩

theorem merged_allocated (v : Survey) (fresh : Nat → ElementId) :
    ∃ count, allocated (v.merged fresh) = (List.range count).map fresh := by
  obtain ⟨count, ids⟩ := v.describeFrom_allocated fresh 0 v.planned
  refine ⟨count, ?_⟩
  rw [allocated_of_thins (v.merged_thins fresh), List.range_eq_range']
  exact ids

end Survey

/-! ## Resolution -/

section

variable {graph : TemplateGraph} {s : Store} {fresh : Nat → ElementId}
  {request : IncarnationRequest} {options : ResolveOptions} {plan : IncarnationPlan}

theorem missingItem?_eq_none_iff : missingItem? graph request = none ↔
    ∀ id ∈ request.items, (graph.getIn? request.source id).isSome = true := by
  simp [missingItem?, List.find?_eq_none, Option.isSome_iff_ne_none]

theorem resolve_eq (s : Store) (fresh : Nat → ElementId) (options : ResolveOptions)
    (nonempty : request.items ≠ [])
    (exist : ∀ id ∈ request.items, (graph.getIn? request.source id).isSome = true) :
    ∃ reused, CutsExactly graph request options s reused ∧
      resolve graph s.connect fresh request options =
        .ok ((settledSurvey graph request options s reused).plan request fresh) := by
  obtain ⟨reused, found, cuts, surveyed, knows⟩ := Walk.survey_ends (s := s) options
    exist ⟨[], rfl, fun _ => nofun⟩ Incarnations.Mirrors.start
  refine ⟨reused, cuts, ?_⟩
  have started : Walk.survey ⟨graph, request.source, options, []⟩ s.connect request {} = _ :=
    surveyed
  have described := Survey.descriptions_settled knows fresh
  have issues := Survey.issues_eq (request.walk graph options reused)
    ((request.walk graph options reused).plannedItems request.items) found
    (s.elementsOf request.unit request.domain)
  unfold resolve
  rw [if_neg (by simpa using nonempty), missingItem?_eq_none_iff.mpr exist]
  simp only [started, described, issues]
  rfl

theorem resolve_eq_ok (h : resolve graph s.connect fresh request options = .ok plan) :
    request.items ≠ [] ∧
      (∀ id ∈ request.items, (graph.getIn? request.source id).isSome = true) ∧
      ∃ reused, CutsExactly graph request options s reused ∧
        plan = (settledSurvey graph request options s reused).plan request fresh := by
  have nonempty : request.items ≠ [] := by
    intro empty
    simp [resolve, empty] at h
  have exist : missingItem? graph request = none := by
    by_contra missing
    obtain ⟨id, first⟩ := Option.ne_none_iff_exists'.mp missing
    unfold resolve at h
    rw [if_neg (by simpa using nonempty), first] at h
    cases h
  rw [missingItem?_eq_none_iff] at exist
  obtain ⟨reused, cuts, resolved⟩ := resolve_eq s fresh options nonempty exist
  cases resolved.symm.trans h
  exact ⟨nonempty, exist, reused, cuts, rfl⟩

end

/-- A request that is resolved in spite of an outage is resolved as over the plain store. -/
theorem resolve_connect {graph : TemplateGraph} {c : Connection} {fresh : Nat → ElementId}
    {request : IncarnationRequest} {options : ResolveOptions} {plan : IncarnationPlan}
    (h : resolve graph c fresh request options = .ok plan) :
    resolve graph c.store.connect fresh request options = .ok plan := by
  unfold resolve at h ⊢
  split
  · next empty => rwa [if_pos empty] at h
  · next nonempty =>
    rw [if_neg nonempty] at h
    cases missing : missingItem? graph request with
    | some item =>
      rw [missing] at h
      exact h
    | none =>
      simp only [missing] at h
      cases found : Walk.survey ⟨graph, request.source, options, []⟩ c request {} with
      | error e =>
        rw [found] at h
        cases h
      | ok v =>
        rw [found] at h
        simp only [Walk.survey_connect found]
        exact h

/-! ## Answers -/

/-- What becomes of an item: where the policy looks, the first stored element that it accepts is
reused; else an element is created, guarded if a look-up could have found one. -/
def IncarnationRequest.Disposes (request : IncarnationRequest) (s : Store) (p : LookupPolicy)
    (item : TemplateItem) (d : IncarnationDescription) : Prop :=
  if p.appliesTo d.requested then
    match (s.elementsOf request.unit request.domain).find? fun e => p.Accepts item e with
    | some e => d.disposition = .reuse e.id
    | none => ∃ id, d.disposition = .create id item.applied?.isSome
  else ∃ id, d.disposition = .create id false

namespace IncarnationRequest.Disposes

variable {request : IncarnationRequest} {s : Store} {p : LookupPolicy} {item : TemplateItem}
  {d : IncarnationDescription} {id : ElementId} {isGuarded : Bool}

/-- A reused element is a stored one that the policy accepts. -/
theorem of_reuse (h : request.Disposes s p item d) (reuse : d.disposition = .reuse id) :
    ∃ e ∈ s.elementsOf request.unit request.domain, e.id = id ∧ p.Accepts item e := by
  unfold IncarnationRequest.Disposes at h
  rw [reuse] at h
  split at h
  · split at h
    · next e first =>
      cases h
      exact ⟨e, List.mem_of_find?_eq_some first, rfl, by simpa using List.find?_some first⟩
    · obtain ⟨_, create⟩ := h
      cases create
  · obtain ⟨_, create⟩ := h
    cases create

/-- Where the policy looks, it has found none for what is created. -/
theorem of_create (h : request.Disposes s p item d) (create : d.disposition = .create id isGuarded)
    (applies : p.appliesTo d.requested = true) :
    isGuarded = item.applied?.isSome ∧
      ∀ e ∈ s.elementsOf request.unit request.domain, ¬ p.Accepts item e := by
  unfold IncarnationRequest.Disposes at h
  rw [if_pos applies, create] at h
  split at h
  · cases h
  · next none =>
    obtain ⟨_, same⟩ := h
    exact ⟨(Disposition.create.inj same).2, by simpa [List.find?_eq_none] using none⟩

/-- Only what is looked for is guarded. -/
theorem applies_of_guarded (h : request.Disposes s p item d)
    (create : d.disposition = .create id true) : p.appliesTo d.requested = true := by
  unfold IncarnationRequest.Disposes at h
  rw [create] at h
  split at h
  · next applies => exact applies
  · obtain ⟨_, same⟩ := h
    cases same

end IncarnationRequest.Disposes

/-- A plan describes exactly what a request calls for. -/
structure IncarnationPlan.Answers (plan : IncarnationPlan) (graph : TemplateGraph) (s : Store)
    (fresh : Nat → ElementId) (request : IncarnationRequest) (options : ResolveOptions) :
    Prop where
  /-- No item is described twice. -/
  nodup : (plan.descriptions.map (·.item)).Nodup
  /-- The items are the closure of the requested ones under what the mode follows. -/
  items : ∀ id, id ∈ plan.descriptions.map (·.item) ↔
    Closure graph request options.Follows (request.Cuts graph options s) id
  /-- Flagged are the items that are copied along with the requested ones. -/
  requested : ∀ d ∈ plan.descriptions, d.requested = true ↔
    Closure graph request options.Copies (request.Cuts graph options s) d.item
  dispositions : ∀ d ∈ plan.descriptions, ∃ item,
    graph.getIn? request.source d.item = some item ∧ request.Disposes s options.lookup item d
  allocated : ∃ count, allocated plan.descriptions = (List.range count).map fresh

namespace Survey

variable {v : Survey} {p : ItemId × Bool} {d : IncarnationDescription}

theorem Describes.disposes {graph : TemplateGraph} {s : Store} {request : IncarnationRequest}
    {options : ResolveOptions} {reused : List ItemId}
    (h : (settledSurvey graph request options s reused).Describes p d) :
    ∃ item, graph.getIn? request.source d.item = some item ∧
      request.Disposes s options.lookup item d := by
  have key := h.key_eq
  obtain ⟨item, id, found, thins⟩ := h
  cases key
  refine ⟨item, found, ?_⟩
  have given : d.disposition =
      (settledSurvey graph request options s reused).disposition item d.requested id :=
    thins.disposition
  have policy : (settledSurvey graph request options s reused).walk.options.lookup =
      options.lookup := rfl
  have first : (settledSurvey graph request options s reused).existing? item =
      ((s.elementsOf request.unit request.domain).find? fun e =>
        options.lookup.Accepts item e).map (·.id) := existingIncarnation?_eq
  unfold IncarnationRequest.Disposes
  rw [given, Survey.disposition, policy, first]
  split
  · cases (s.elementsOf request.unit request.domain).find? fun e => options.lookup.Accepts item e with
    | some e => rfl
    | none => exact ⟨id, rfl⟩
  · exact ⟨id, rfl⟩

end Survey

section

variable (graph : TemplateGraph) (s : Store) (fresh : Nat → ElementId)
  (request : IncarnationRequest) (options : ResolveOptions) (reused : List ItemId)

theorem settled_describes : List.Forall₂ (settledSurvey graph request options s reused).Describes
    (settledSurvey graph request options s reused).planned
    ((settledSurvey graph request options s reused).plan request fresh).descriptions :=
  Survey.merged_describes
    (fun _ hp => Walk.plannedItems_exist request.items (List.mem_map_of_mem hp)) fresh

/-- Items and flags are those of the planned items, in their order. -/
theorem settled_keys :
    ((settledSurvey graph request options s reused).plan request fresh).descriptions.map
        (fun d => (d.item, d.requested)) =
      (request.walk graph options reused).plannedItems request.items := by
  have keys {v : Survey} {planned : PlannedItems} {ds : List IncarnationDescription}
      (h : List.Forall₂ v.Describes planned ds) :
      ds.map (fun d => (d.item, d.requested)) = planned := by
    induction h with
    | nil => rfl
    | cons described _ ih => rw [List.map_cons, described.key_eq, ih]
  exact keys (settled_describes graph s fresh request options reused)

theorem settled_items :
    ((settledSurvey graph request options s reused).plan request fresh).descriptions.map (·.item) =
      ((request.walk graph options reused).plannedItems request.items).map (·.1) := by
  rw [← settled_keys graph s fresh request options reused, List.map_map]
  rfl

theorem settled_nodup :
    (((settledSurvey graph request options s reused).plan request fresh).descriptions.map
      (·.item)).Nodup := by
  rw [settled_items]
  exact Walk.plannedItems_nodup request.items

theorem settled_disposes {d : IncarnationDescription}
    (hd : d ∈ ((settledSurvey graph request options s reused).plan request fresh).descriptions) :
    ∃ item, graph.getIn? request.source d.item = some item ∧
      request.Disposes s options.lookup item d := by
  obtain ⟨p, -, described⟩ := forall₂_mem_right
    (settled_describes graph s fresh request options reused) hd
  exact described.disposes

theorem settled_exist :
    ∀ d ∈ ((settledSurvey graph request options s reused).plan request fresh).descriptions,
      (graph.getIn? request.source d.item).isSome = true := by
  intro d hd
  obtain ⟨_, found, -⟩ := settled_disposes graph s fresh request options reused hd
  exact Option.isSome_of_eq_some found

end

/-- Every request for items that exist is resolved to a plan that answers it. -/
theorem resolve_answers (graph : TemplateGraph) (s : Store) (fresh : Nat → ElementId)
    (request : IncarnationRequest) (options : ResolveOptions) (nonempty : request.items ≠ [])
    (exist : ∀ id ∈ request.items, (graph.getIn? request.source id).isSome = true) :
    ∃ plan, resolve graph s.connect fresh request options = .ok plan ∧
      plan.Answers graph s fresh request options := by
  obtain ⟨reused, cuts, resolved⟩ := resolve_eq s fresh options nonempty exist
  have keys := settled_keys graph s fresh request options reused
  refine ⟨_, resolved, settled_nodup graph s fresh request options reused, fun id => ?_,
    fun d hd => ?_, fun d hd => settled_disposes graph s fresh request options reused hd,
    Survey.merged_allocated _ fresh⟩
  · rw [settled_items, cuts.planned_iff exist]
  · have planned := List.mem_map_of_mem (f := fun d => (d.item, d.requested)) hd
    rw [keys] at planned
    rw [← cuts.flag_iff exist]
    refine ⟨fun flagged => flagged ▸ planned, fun flagged => ?_⟩
    -- an item is planned with one flag only
    have same := List.inj_on_of_nodup_map (Walk.plannedItems_nodup request.items) planned flagged rfl
    exact (Prod.mk.inj same).2

/-- A copy whose part is the original. The copy has an incarnation in the unit, so the further
part that it has is left out. -/
theorem resolve_answers_of_circle :
    let item (n : Nat) (references : List TailoringReference) : TemplateItem :=
      { id := ⟨⟨n⟩⟩, nspace := .domain ⟨⟨1⟩⟩, name := "item", elementType := .asset, references }
    let original := item 10 [⟨⟨⟨20⟩⟩, ⟨⟨11⟩⟩, .copy⟩]
    let copy := item 11 [⟨⟨⟨21⟩⟩, ⟨⟨10⟩⟩, .part⟩, ⟨⟨⟨22⟩⟩, ⟨⟨12⟩⟩, .part⟩]
    let graph : TemplateGraph := ⟨[original, copy, item 12 []], by decide⟩
    let held : Element :=
      { id := ⟨⟨3⟩⟩, owner := ⟨⟨2⟩⟩, domain := ⟨⟨1⟩⟩, name := "held", elementType := .asset
        appliedItem := some ⟨copy.id, copy.version⟩ }
    let s : Store := { elements := ⟨[held], by decide⟩ }
    let request : IncarnationRequest :=
      { unit := ⟨⟨2⟩⟩, domain := ⟨⟨1⟩⟩, items := [original.id] }
    let options : ResolveOptions := { lookup := .sameVersion }
    let fresh (n : Nat) : ElementId := ⟨⟨n + 50⟩⟩
    (resolve graph s.connect fresh request options).toOption.map (fun plan =>
        plan.descriptions.map fun d => (d.item, d.disposition)) =
      some [(original.id, .create (fresh 0) true), (copy.id, .reuse held.id)] ∧
    request.items ≠ [] ∧
    (∀ id ∈ request.items, (graph.getIn? request.source id).isSome = true) ∧
    ∃ plan, resolve graph s.connect fresh request options = .ok plan ∧
      plan.Answers graph s fresh request options := by
  intro item original copy graph held s request options fresh
  have nonempty : request.items ≠ [] := by decide
  have exist : ∀ id ∈ request.items, (graph.getIn? request.source id).isSome = true := by decide
  exact ⟨by decide +kernel, nonempty, exist,
    resolve_answers graph s fresh request options nonempty exist⟩

end TemplateCatalog
