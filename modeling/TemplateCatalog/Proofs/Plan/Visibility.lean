import TemplateCatalog.Plan.Resolve
import TemplateCatalog.Proofs.Plan.Walk

/-!
# What a resolution sees of a graph

A resolution looks up items by their identifiers and follows the references that
its filter admits. So it sees neither the order of the items nor any reference of
another type. Nor does its walk see whether relations are merged in the end.

`TemplateGraph.AlikeUnder` relates graphs that differ in nothing that a filter
shows, and `Walk.onGraph` puts a walk on another graph. Each function of the walk and
of the survey gives the same on both graphs.

Results:
1. `AlikeUnder.iff_perm`: alike graphs show the same items in some order.
2. `Walk.plannedItems_onGraph`: both walks plan the same items in the same order.
3. `Walk.survey_onGraph`: both surveys ask the repository for the same, reuse the same
   and end after the same rounds.
4. `Survey.descriptions_onGraph`, `Survey.issues_onGraph`: both describe the same.
-/

namespace TemplateCatalog

/-! ## Graphs under a filter -/

/-- The item without the references that the filter does not admit. -/
def ReferenceFilter.visible (f : ReferenceFilter) (item : TemplateItem) : TemplateItem :=
  { item with references := item.references.filter fun r => f.admits r.type }

/-- Items of which the same is visible agree on everything that is read off the visible part. -/
theorem ReferenceFilter.eq_of_visible {α : Type} {f : ReferenceFilter} {item item' : TemplateItem}
    (field : TemplateItem → α) (blind : ∀ item, field (f.visible item) = field item)
    (h : f.visible item = f.visible item') : field item' = field item := by
  rw [← blind item', ← h, blind]

/-- Both graphs hold the same items, up to references that the filter does not admit. -/
def TemplateGraph.AlikeUnder (f : ReferenceFilter) (g g' : TemplateGraph) : Prop :=
  ∀ id, (g.get? id).map f.visible = (g'.get? id).map f.visible

namespace TemplateGraph.AlikeUnder

variable {f : ReferenceFilter} {g g' : TemplateGraph} {nspace : ItemNamespace}

theorem refl (f : ReferenceFilter) (g : TemplateGraph) : AlikeUnder f g g := fun _ => rfl

theorem get?_cases (h : AlikeUnder f g g') (id : ItemId) :
    (g.get? id = none ∧ g'.get? id = none) ∨
      ∃ item item', g.get? id = some item ∧ g'.get? id = some item' ∧
        f.visible item = f.visible item' := by
  have same := h id
  cases found : g.get? id with
  | none =>
    rw [found] at same
    exact .inl ⟨rfl, Option.map_eq_none_iff.mp same.symm⟩
  | some item =>
    rw [found] at same
    obtain ⟨item', found', visible⟩ := Option.map_eq_some_iff.mp same.symm
    exact .inr ⟨item, item', rfl, found', visible.symm⟩

theorem getIn?_cases (h : AlikeUnder f g g') (nspace : ItemNamespace) (id : ItemId) :
    (g.getIn? nspace id = none ∧ g'.getIn? nspace id = none) ∨
      ∃ item item', g.getIn? nspace id = some item ∧ g'.getIn? nspace id = some item' ∧
        f.visible item = f.visible item' := by
  unfold getIn?
  rcases h.get?_cases id with ⟨missing, missing'⟩ | ⟨item, item', found, found', visible⟩
  · rw [missing, missing']
    exact .inl ⟨rfl, rfl⟩
  · rw [found, found', Option.filter_some, Option.filter_some,
      ReferenceFilter.eq_of_visible TemplateItem.nspace (fun _ => rfl) visible]
    by_cases inNamespace : item.nspace = nspace
    · rw [decide_eq_true inNamespace]
      exact .inr ⟨item, item', rfl, rfl, visible⟩
    · rw [decide_eq_false inNamespace]
      exact .inl ⟨rfl, rfl⟩

theorem isSome_getIn? (h : AlikeUnder f g g') (nspace : ItemNamespace) (id : ItemId) :
    (g'.getIn? nspace id).isSome = (g.getIn? nspace id).isSome := by
  rcases h.getIn?_cases nspace id with ⟨missing, missing'⟩ | ⟨item, item', found, found', -⟩
  · rw [missing, missing']
  · rw [found, found']
    rfl

/-- What is visible of the item with an identifier is the visible item with that identifier. -/
theorem map_visible_get?_eq_some_iff {id : ItemId} {x : TemplateItem} :
    (g.get? id).map f.visible = some x ↔ x ∈ g.items.map f.visible ∧ x.id = id := by
  rw [Option.map_eq_some_iff, List.mem_map]
  constructor
  · rintro ⟨item, found, rfl⟩
    obtain ⟨hitem, same⟩ := get?_eq_some_iff.mp found
    exact ⟨⟨item, hitem, rfl⟩, same⟩
  · rintro ⟨⟨item, hitem, rfl⟩, same⟩
    exact ⟨item, get?_eq_some_iff.mpr ⟨hitem, same⟩, rfl⟩

/-- Graphs are alike when the same items are visible in them, in whatever order. -/
theorem iff_perm : AlikeUnder f g g' ↔ (g.items.map f.visible).Perm (g'.items.map f.visible) := by
  constructor
  · intro h
    have nodup (g : TemplateGraph) : (g.items.map f.visible).Nodup := by
      refine List.Nodup.of_map TemplateItem.id ?_
      rw [List.map_map]
      exact g.distinct_ids
    refine (List.perm_ext_iff_of_nodup (nodup g) (nodup g')).mpr fun x => ?_
    have same : (g.get? x.id).map f.visible = some x ↔ (g'.get? x.id).map f.visible = some x := by
      rw [h x.id]
    simpa only [map_visible_get?_eq_some_iff, and_true] using same
  · intro perm id
    refine Option.ext fun x => ?_
    rw [map_visible_get?_eq_some_iff, map_visible_get?_eq_some_iff, perm.mem_iff]

/-- Both graphs have as many items that pass a test of what is visible. -/
theorem length_filter (h : AlikeUnder f g g') {p : TemplateItem → Bool}
    (blind : ∀ item, p (f.visible item) = p item) :
    (g'.items.filter p).length = (g.items.filter p).length := by
  have visibly (g : TemplateGraph) :
      (g.items.filter p).length = ((g.items.map f.visible).filter p).length := by
    rw [List.filter_map, List.length_map, show p ∘ f.visible = p from funext blind]
  rw [visibly, visibly]
  exact ((iff_perm.mp h).filter p).length_eq.symm

end TemplateGraph.AlikeUnder

/-! ## Walks -/

namespace Walk

/-- The same walk over another graph, with merging switched on or off. -/
def onGraph (w : Walk) (g : TemplateGraph) (merge : Bool) : Walk :=
  { w with graph := g, options := { w.options with mergeBidirectional := merge } }

theorem followed_onGraph {w : Walk} {g : TemplateGraph} (merge : Bool) {item item' : TemplateItem}
    (visible : w.options.filter.visible item = w.options.filter.visible item') :
    (w.onGraph g merge).followed item' = w.followed item := by
  have sameId : item'.id = item.id :=
    ReferenceFilter.eq_of_visible TemplateItem.id (fun _ => rfl) visible
  -- what is admitted is what is visible
  have admitted : (w.onGraph g merge).admitted item' = w.admitted item :=
    (congrArg TemplateItem.references visible).symm
  show (if w.reused.contains item'.id then [] else (w.onGraph g merge).admitted item') =
    if w.reused.contains item.id then [] else w.admitted item
  rw [sameId, admitted]

section

variable {w : Walk} {g : TemplateGraph} (merge : Bool)
  (alike : w.graph.AlikeUnder w.options.filter g)
include alike

theorem item?_cases (id : ItemId) :
    (w.item? id = none ∧ (w.onGraph g merge).item? id = none) ∨
      ∃ item item', w.item? id = some item ∧ (w.onGraph g merge).item? id = some item' ∧
        w.options.filter.visible item = w.options.filter.visible item' :=
  alike.getIn?_cases w.nspace id

theorem isSome_item?_onGraph (id : ItemId) :
    ((w.onGraph g merge).item? id).isSome = (w.item? id).isSome :=
  alike.isSome_getIn? w.nspace id

theorem copies_onGraph : (w.onGraph g merge).copies = w.copies := by
  funext id
  unfold copies
  rcases item?_cases merge alike id with
    ⟨missing, missing'⟩ | ⟨item, item', found, found', visible⟩
  · rw [missing, missing']
  · simp only [found, found', followed_onGraph merge visible]

theorem expansions_onGraph : (w.onGraph g merge).expansions = w.expansions := by
  funext id
  unfold expansions
  rcases item?_cases merge alike id with
    ⟨missing, missing'⟩ | ⟨item, item', found, found', visible⟩
  · rw [missing, missing']
  · simp only [found, found', followed_onGraph merge visible]
    rfl

theorem length_left_onGraph (planned : PlannedItems) :
    ((w.onGraph g merge).left planned).length = (w.left planned).length :=
  alike.length_filter fun _ => rfl

theorem length_unreused_onGraph : (w.onGraph g merge).unreused.length = w.unreused.length :=
  alike.length_filter fun _ => rfl

theorem newItems_onGraph (planned : PlannedItems) (level : List ItemId) :
    (w.onGraph g merge).newItems planned level = w.newItems planned level := by
  unfold newItems
  simp only [isSome_item?_onGraph merge alike]

theorem planWithCopies_onGraph (requested : Bool) (planned : PlannedItems) (level : List ItemId) :
    (w.onGraph g merge).planWithCopies requested planned level =
      w.planWithCopies requested planned level := by
  have planLevel (planned : PlannedItems) (level : List ItemId) :
      (w.onGraph g merge).planLevel requested planned level =
        w.planLevel requested planned level := by
    simp only [Walk.planLevel, newItems_onGraph merge alike]
  have nextLevel (planned : PlannedItems) (level : List ItemId) :
      (w.onGraph g merge).nextLevel planned level = w.nextLevel planned level := by
    simp only [Walk.nextLevel, newItems_onGraph merge alike, copies_onGraph merge alike]
  fun_induction w.planWithCopies requested planned level with
  | case1 planned level less ih =>
    rw [planWithCopies, planLevel, nextLevel, length_left_onGraph merge alike,
      length_left_onGraph merge alike, if_pos less]
    exact ih
  | case2 planned level stuck =>
    rw [planWithCopies, planLevel, length_left_onGraph merge alike, length_left_onGraph merge alike,
      if_neg stuck]

theorem planEach_onGraph (requested : Bool) (planned : PlannedItems) (ids : List ItemId) :
    (w.onGraph g merge).planEach requested planned ids = w.planEach requested planned ids := by
  simp only [planEach, planWithCopies_onGraph merge alike]

theorem expand_onGraph (planned : PlannedItems) (frontier : List ItemId) :
    (w.onGraph g merge).expand planned frontier = w.expand planned frontier := by
  have each (planned : PlannedItems) (frontier : List ItemId) :
      (w.onGraph g merge).planExpansions planned frontier = w.planExpansions planned frontier := by
    show (w.onGraph g merge).planEach false planned
        (frontier.flatMap (w.onGraph g merge).expansions) =
      w.planEach false planned (frontier.flatMap w.expansions)
    rw [expansions_onGraph merge alike, planEach_onGraph merge alike]
  fun_induction w.expand planned frontier with
  | case1 planned frontier less ih =>
    rw [expand, each, length_left_onGraph merge alike, length_left_onGraph merge alike,
      if_pos less]
    exact ih
  | case2 planned frontier stuck =>
    rw [expand, each, length_left_onGraph merge alike, length_left_onGraph merge alike,
      if_neg stuck]

theorem plannedItems_onGraph (requested : List ItemId) :
    (w.onGraph g merge).plannedItems requested = w.plannedItems requested := by
  show (w.onGraph g merge).expand ((w.onGraph g merge).planEach true [] requested)
      (((w.onGraph g merge).planEach true [] requested).map (·.1)) =
    w.expand (w.planEach true [] requested) ((w.planEach true [] requested).map (·.1))
  rw [planEach_onGraph merge alike, expand_onGraph merge alike]

/-! ## Look-ups -/

theorem unplannedTargets_onGraph (planned : PlannedItems) :
    (w.onGraph g merge).unplannedTargets planned = w.unplannedTargets planned := by
  unfold unplannedTargets
  simp only [isSome_item?_onGraph merge alike]
  congr 2
  refine List.flatMap_congr fun p _ => ?_
  rcases item?_cases merge alike p.1 with
    ⟨missing, missing'⟩ | ⟨item, item', found, found', visible⟩
  · rw [missing, missing']
  · simp only [found, found', followed_onGraph merge visible]

theorem candidates_onGraph (planned : PlannedItems) (known : Incarnations) :
    (w.onGraph g merge).candidates planned known = w.candidates planned known := by
  have applied (id : ItemId) : (g.get? id).bind (·.applied?) =
      (w.graph.get? id).bind (·.applied?) := by
    rcases alike.get?_cases id with ⟨missing, missing'⟩ | ⟨item, item', found, found', visible⟩
    · rw [missing, missing']
    · rw [found, found']
      exact ReferenceFilter.eq_of_visible TemplateItem.applied? (fun _ => rfl) visible
  unfold candidates
  rw [unplannedTargets_onGraph merge alike]
  simp only [onGraph, applied]

theorem lookUp_onGraph (c : Connection) (request : IncarnationRequest) (planned : PlannedItems)
    (known : Incarnations) :
    (w.onGraph g merge).lookUp c request planned known = w.lookUp c request planned known := by
  unfold lookUp
  rw [candidates_onGraph merge alike]
  rfl

theorem newlyReused_onGraph (planned : PlannedItems) (known : Incarnations) :
    (w.onGraph g merge).newlyReused planned known = w.newlyReused planned known := by
  have existing (id : ItemId) :
      ((w.onGraph g merge).item? id).bind (existingIncarnation? known.found w.options.lookup) =
        (w.item? id).bind (existingIncarnation? known.found w.options.lookup) := by
    rcases item?_cases merge alike id with
      ⟨missing, missing'⟩ | ⟨item, item', found, found', visible⟩
    · rw [missing, missing']
    · rw [found, found']
      exact ReferenceFilter.eq_of_visible
        (existingIncarnation? known.found w.options.lookup) (fun _ => rfl) visible
  have options : (w.onGraph g merge).options.lookup = w.options.lookup := rfl
  have reused : (w.onGraph g merge).reused = w.reused := rfl
  unfold newlyReused
  simp only [options, reused, existing]

end

/-! ## Rounds -/

end Walk

/-- The survey as it is over another graph, with merging switched on or off. -/
def Survey.onGraph (v : Survey) (g : TemplateGraph) (merge : Bool) : Survey :=
  { v with walk := v.walk.onGraph g merge }

theorem Walk.survey_onGraph {w : Walk} {g : TemplateGraph} (merge : Bool)
    (alike : w.graph.AlikeUnder w.options.filter g) (c : Connection)
    (request : IncarnationRequest) (known : Incarnations) :
    (w.onGraph g merge).survey c request known =
      (w.survey c request known).map fun v => v.onGraph g merge := by
  fun_induction w.survey c request known with
  | case1 w known planned e failed =>
    rw [survey, plannedItems_onGraph merge alike, lookUp_onGraph merge alike, failed]
    rfl
  | case2 w known planned known' found always =>
    rw [survey, plannedItems_onGraph merge alike, lookUp_onGraph merge alike, found]
    exact if_pos always
  | case3 w known planned known' found notAlways w' less ih =>
    rw [survey, plannedItems_onGraph merge alike, lookUp_onGraph merge alike, found]
    simp only [newlyReused_onGraph merge alike, length_unreused_onGraph merge alike]
    rw [if_neg (show ¬ (w.onGraph g merge).options.lookup = .always from notAlways)]
    have less' : (w'.onGraph g merge).unreused.length < w.unreused.length := by
      rw [length_unreused_onGraph (w := w') merge alike]
      exact less
    exact (if_pos less').trans (ih alike)
  | case4 w known planned known' found notAlways w' stuck =>
    rw [survey, plannedItems_onGraph merge alike, lookUp_onGraph merge alike, found]
    simp only [newlyReused_onGraph merge alike, length_unreused_onGraph merge alike]
    rw [if_neg (show ¬ (w.onGraph g merge).options.lookup = .always from notAlways)]
    have stuck' : ¬ (w'.onGraph g merge).unreused.length < w.unreused.length := by
      rw [length_unreused_onGraph (w := w') merge alike]
      exact stuck
    exact if_neg stuck'

/-- A survey changes nothing about its walk but what is reused. -/
theorem Walk.survey_walk {w : Walk} {c : Connection} {request : IncarnationRequest}
    {known : Incarnations} {v : Survey} (h : w.survey c request known = .ok v) :
    v.walk.graph = w.graph ∧ v.walk.options = w.options := by
  fun_induction w.survey c request known with
  | case1 => cases h
  | case2 =>
    cases h
    exact ⟨rfl, rfl⟩
  | case3 w known planned known' found notAlways w' less ih => exact ih h
  | case4 =>
    cases h
    exact ⟨rfl, rfl⟩

/-! ## Descriptions -/

namespace Survey

section

variable {v : Survey} {g : TemplateGraph} (merge : Bool)
  (alike : v.walk.graph.AlikeUnder v.walk.options.filter g)
include alike

theorem target_onGraph (origin : ItemId) (reference : ReferenceId) (t : ItemId) :
    (v.onGraph g merge).target origin reference t = v.target origin reference t := by
  have graph : (v.onGraph g merge).walk.graph = g := rfl
  have nspace : (v.onGraph g merge).walk.nspace = v.walk.nspace := rfl
  unfold target
  rw [graph, nspace]
  rcases alike.get?_cases t with ⟨missing, missing'⟩ | ⟨item, item', found, found', visible⟩
  · rw [missing, missing']
  · have existing : (v.onGraph g merge).existing? item' = v.existing? item :=
      ReferenceFilter.eq_of_visible v.existing? (fun _ => rfl) visible
    have sameNamespace : item'.nspace = item.nspace :=
      ReferenceFilter.eq_of_visible TemplateItem.nspace (fun _ => rfl) visible
    simp only [found, found', existing, sameNamespace]
    rfl

theorem resolve?_onGraph (origin : ItemId) (r : TailoringReference) :
    (v.onGraph g merge).resolve? origin r = v.resolve? origin r := by
  simp only [resolve?, auxiliaryTargets, target_onGraph merge alike]

theorem issuesOf_onGraph (origin : ItemId) (r : TailoringReference) :
    (v.onGraph g merge).issuesOf origin r = v.issuesOf origin r := by
  simp only [issuesOf, issue?, target_onGraph merge alike]

theorem describe_onGraph {item item' : TemplateItem}
    (visible : v.walk.options.filter.visible item = v.walk.options.filter.visible item')
    (requested : Bool) (fresh : ElementId) :
    (v.onGraph g merge).describe item' requested fresh = v.describe item requested fresh := by
  have sameId : item'.id = item.id :=
    ReferenceFilter.eq_of_visible TemplateItem.id (fun _ => rfl) visible
  have disposition : (v.onGraph g merge).disposition item' requested fresh =
      v.disposition item requested fresh :=
    ReferenceFilter.eq_of_visible (fun item => v.disposition item requested fresh) (fun _ => rfl)
      visible
  have followed : (v.onGraph g merge).walk.followed item' = v.walk.followed item :=
    Walk.followed_onGraph merge visible
  have resolves : (v.onGraph g merge).resolve? item.id = v.resolve? item.id :=
    funext (resolve?_onGraph merge alike item.id)
  unfold describe
  rw [sameId, disposition, followed, resolves]

theorem describeFrom_onGraph (fresh : Nat → ElementId) (n : Nat) (planned : PlannedItems) :
    (v.onGraph g merge).describeFrom fresh n planned = v.describeFrom fresh n planned := by
  have walk : (v.onGraph g merge).walk = v.walk.onGraph g merge := rfl
  induction planned generalizing n with
  | nil => rfl
  | cons p rest ih =>
    unfold describeFrom
    rw [walk]
    rcases Walk.item?_cases merge alike p.1 with
      ⟨missing, missing'⟩ | ⟨item, item', found, found', visible⟩
    · simp only [missing, missing', ih]
    · simp only [found, found', describe_onGraph merge alike visible, ih]

theorem descriptions_onGraph (fresh : Nat → ElementId) :
    (v.onGraph g merge).descriptions fresh = v.descriptions fresh :=
  describeFrom_onGraph merge alike fresh 0 v.planned

theorem issues_onGraph : (v.onGraph g merge).issues = v.issues := by
  have walk : (v.onGraph g merge).walk = v.walk.onGraph g merge := rfl
  unfold issues
  rw [walk]
  refine List.flatMap_congr fun p _ => ?_
  rcases Walk.item?_cases merge alike p.1 with
    ⟨missing, missing'⟩ | ⟨item, item', found, found', visible⟩
  · rw [missing, missing']
  · have sameId : item'.id = item.id :=
      ReferenceFilter.eq_of_visible TemplateItem.id (fun _ => rfl) visible
    have issues : (v.onGraph g merge).issuesOf item.id = v.issuesOf item.id :=
      funext (issuesOf_onGraph merge alike item.id)
    simp only [found, found', sameId, Walk.followed_onGraph merge visible, issues]

end

end Survey

/-! ## Resolution -/

section

variable {graph graph' : TemplateGraph} {options : ResolveOptions}
  (alike : graph.AlikeUnder options.filter graph')
include alike

theorem missingItem?_onGraph (request : IncarnationRequest) :
    missingItem? graph' request = missingItem? graph request := by
  unfold missingItem?
  congr 1
  funext id
  rw [← Option.not_isSome, ← Option.not_isSome, alike.isSome_getIn?]

/-- What a survey gives over another graph, which is all that a resolution asks for. -/
theorem survey_onGraph_cases (merge : Bool) (c : Connection) (request : IncarnationRequest) :
    (∃ e, Walk.survey ⟨graph, request.source, options, []⟩ c request {} = .error e ∧
        Walk.survey ⟨graph', request.source, { options with mergeBidirectional := merge }, []⟩ c
          request {} = .error e) ∨
      ∃ v v', Walk.survey ⟨graph, request.source, options, []⟩ c request {} = .ok v ∧
        Walk.survey ⟨graph', request.source, { options with mergeBidirectional := merge }, []⟩ c
          request {} = .ok v' ∧
        (∀ fresh, v'.descriptions fresh = v.descriptions fresh) ∧ v'.issues = v.issues := by
  have surveyed : Walk.survey ⟨graph', request.source, { options with mergeBidirectional := merge },
      []⟩ c request {} = (Walk.survey ⟨graph, request.source, options, []⟩ c request {}).map
        fun v => v.onGraph graph' merge :=
    Walk.survey_onGraph (w := ⟨graph, request.source, options, []⟩) merge alike c request {}
  rw [surveyed]
  cases found : Walk.survey ⟨graph, request.source, options, []⟩ c request {} with
  | error e => exact .inl ⟨e, rfl, rfl⟩
  | ok v =>
    obtain ⟨sameGraph, sameOptions⟩ := Walk.survey_walk found
    have alike' : v.walk.graph.AlikeUnder v.walk.options.filter graph' := by
      rw [sameGraph, sameOptions]
      exact alike
    exact .inr ⟨v, _, rfl, rfl, Survey.descriptions_onGraph merge alike',
      Survey.issues_onGraph merge alike'⟩

/-- A request is resolved to the same plan, or to the same error, over graphs of which the filter
shows the same. -/
theorem resolve_onGraph (c : Connection) (fresh : Nat → ElementId) (request : IncarnationRequest) :
    resolve graph' c fresh request options = resolve graph c fresh request options := by
  unfold resolve
  rw [missingItem?_onGraph alike]
  split
  · rfl
  · cases missingItem? graph request with
    | some item => rfl
    | none =>
      rcases survey_onGraph_cases alike options.mergeBidirectional c request with
        ⟨e, failed, failed'⟩ | ⟨v, v', found, found', descriptions, issues⟩
      · simp only [failed, show Walk.survey ⟨graph', request.source, options, []⟩ c request {} = _
          from failed']
      · simp only [found, show Walk.survey ⟨graph', request.source, options, []⟩ c request {} = _
          from found', descriptions, issues]

end

end TemplateCatalog
