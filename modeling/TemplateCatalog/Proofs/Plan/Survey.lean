import TemplateCatalog.Proofs.Plan.Closure
import TemplateCatalog.Proofs.Plan.Lookup

/-!
# The stable survey

A survey repeats its walk with a growing list of reused items. Two things are
kept from round to round: only items that are to be cut are reused, and what was
asked for mirrors the unit. When the rounds end, every planned item that is to be
cut is reused, so the last walk is the one that cuts exactly that (`CutsExactly`).

A survey asks for no more than it needs. `settledSurvey` is the survey that knows
all elements of the unit in the domain; it describes the same.

Results:
1. `Walk.survey_ends`: on a plain store a survey ends with a walk that cuts exactly
   what is to be cut.
2. `CutsExactly.planned_iff`, `CutsExactly.flag_iff`: that walk plans and flags the
   closures under what is to be cut.
3. `Survey.target_congr`, `Survey.issues_eq`: what descriptions and issues depend on.
4. `Survey.descriptions_settled`: what was asked for is enough for descriptions.
-/

namespace TemplateCatalog

namespace IncarnationRequest

/-- The unit of the request holds, in the domain of the request, an incarnation of an item. -/
def HasIncarnation (request : IncarnationRequest) (s : Store) (p : LookupPolicy)
    (item : TemplateItem) : Prop :=
  ∃ e ∈ s.elements.rows, e.owner = request.unit ∧ e.domain = request.domain ∧ p.Accepts item e

/-- The items whose references are not followed. -/
def Cuts (request : IncarnationRequest) (graph : TemplateGraph) (options : ResolveOptions)
    (s : Store) (item : TemplateItem) : Prop :=
  match options.lookup with
  | .never | .always => False
  | .sameVersion => request.HasIncarnation s .sameVersion item
  | .forReferencedItems => request.HasIncarnation s .forReferencedItems item ∧
      ¬ Closure graph request options.Copies (fun _ => False) item.id

end IncarnationRequest

theorem Store.existingIncarnation?_isSome_iff {s : Store} {request : IncarnationRequest}
    {p : LookupPolicy} {item : TemplateItem} :
    (existingIncarnation? (s.elementsOf request.unit request.domain) p item).isSome = true ↔
      request.HasIncarnation s p item := by
  rw [Option.isSome_iff_ne_none, ne_eq, existingIncarnation?_eq_none_iff]
  simp [IncarnationRequest.HasIncarnation, Store.elementsOf]

namespace Walk

variable {w : Walk} {planned : PlannedItems} {known : Incarnations} {id : ItemId}

theorem mem_newlyReused : id ∈ w.newlyReused planned known ↔
    ∃ requested, (id, requested) ∈ planned ∧ id ∉ w.reused ∧
      w.options.lookup.appliesTo requested = true ∧
      ∃ item, w.item? id = some item ∧
        (existingIncarnation? known.found w.options.lookup item).isSome = true := by
  simp only [newlyReused, List.mem_map, List.mem_filter, Bool.and_eq_true, Bool.not_eq_true',
    ← Bool.not_eq_true, List.contains_iff_mem, Option.isSome_bind, Option.any_eq_true]
  constructor
  · rintro ⟨⟨id, requested⟩, ⟨hp, ⟨fresh, applies⟩, found⟩, rfl⟩
    exact ⟨requested, hp, fresh, applies, found⟩
  · rintro ⟨requested, hp, fresh, applies, found⟩
    exact ⟨(id, requested), ⟨hp, ⟨fresh, applies⟩, found⟩, rfl⟩

/-- Another round is walked as long as there is something new to reuse. -/
theorem unreused_lt (h : id ∈ w.newlyReused planned known) :
    ({ w with reused := w.reused ++ w.newlyReused planned known } : Walk).unreused.length <
      w.unreused.length := by
  obtain ⟨-, -, fresh, -, item, found, -⟩ := mem_newlyReused.mp h
  obtain ⟨got, -⟩ := TemplateGraph.getIn?_eq_some_iff.mp found
  obtain ⟨hitem, rfl⟩ := TemplateGraph.get?_eq_some_iff.mp got
  have sub : ({ w with reused := w.reused ++ w.newlyReused planned known } : Walk).unreused.Sublist
      w.unreused := by
    refine List.monotone_filter_right _ fun item kept => ?_
    simp only [List.contains_append, Bool.not_or, Bool.and_eq_true] at kept
    exact kept.1
  refine Nat.lt_of_le_of_ne sub.length_le fun same => ?_
  have before : item ∈ w.unreused := List.mem_filter.mpr ⟨hitem, by simpa using fresh⟩
  rw [← sub.eq_of_length same] at before
  have gone := (List.mem_filter.mp before).2
  simp only [List.contains_append, Bool.not_or, Bool.and_eq_true, Bool.not_eq_true',
    ← Bool.not_eq_true, List.contains_iff_mem] at gone
  exact gone.2 h

end Walk

/-! ## Rounds -/

section

variable {graph : TemplateGraph} {request : IncarnationRequest} {options : ResolveOptions}
  {s : Store} {reused : List ItemId}

/-- What is reused in a round is to be cut. -/
def ReusesCut (graph : TemplateGraph) (request : IncarnationRequest) (options : ResolveOptions)
    (s : Store) (reused : List ItemId) : Prop :=
  ∀ id ∈ reused, ∃ item, graph.getIn? request.source id = some item ∧
    request.Cuts graph options s item

theorem ReusesCut.cuts (h : ReusesCut graph request options s reused) {id : ItemId}
    {item : TemplateItem} (found : graph.getIn? request.source id = some item) (hid : id ∈ reused) :
    request.Cuts graph options s item := by
  obtain ⟨other, found', cut⟩ := h id hid
  cases found.symm.trans found'
  exact cut

/-- A planned item is to be cut if the policy applies to its flag and it has an incarnation. -/
theorem cuts_iff_of_planned
    (exist : ∀ id ∈ request.items, (graph.getIn? request.source id).isSome = true)
    (h : ReusesCut graph request options s reused) {id : ItemId} {requested : Bool}
    (hp : (id, requested) ∈ (request.walk graph options reused).plannedItems request.items)
    {item : TemplateItem} (found : graph.getIn? request.source id = some item) :
    request.Cuts graph options s item ↔ options.lookup ≠ .always ∧
      options.lookup.appliesTo requested = true ∧ request.HasIncarnation s options.lookup item := by
  unfold IncarnationRequest.Cuts
  cases policy : options.lookup with
  | never => simp [LookupPolicy.appliesTo]
  | always => simp
  | sameVersion => simp [LookupPolicy.appliesTo]
  | forReferencedItems =>
    -- copies of requested items are never reused, so the walk flags all of them
    have flag : (id, true) ∈ (request.walk graph options reused).plannedItems request.items ↔
        Closure graph request options.Copies (fun _ => False) item.id := by
      rw [TemplateGraph.id_of_getIn? found, flag_plannedItems_iff exist]
      refine Closure.iff_uncut fun id' item' member found' hid => ?_
      have cut := h.cuts found' (TemplateGraph.id_of_getIn? found' ▸ hid)
      simp only [IncarnationRequest.Cuts, policy] at cut
      exact cut.2 (TemplateGraph.id_of_getIn? found' ▸ member)
    have unique : (id, true) ∈ (request.walk graph options reused).plannedItems request.items ↔
        requested = true := by
      refine ⟨fun flagged => ?_, fun same => same ▸ hp⟩
      have same : (id, requested) = (id, true) :=
        List.inj_on_of_nodup_map (Walk.plannedItems_nodup request.items) hp flagged rfl
      exact (Prod.mk.inj same).2
    rw [← flag, unique]
    simp [LookupPolicy.appliesTo, and_comm]

/-- What planned items and the unplanned items that they refer to have in the unit is known. -/
def Walk.Knows (w : Walk) (planned : PlannedItems) (found : List Element)
    (request : IncarnationRequest) (s : Store) : Prop :=
  w.options.lookup ≠ .never → ∀ id ∈ planned.map (·.1) ++ w.unplannedTargets planned, ∀ item,
    w.graph.get? id = some item →
    existingIncarnation? found w.options.lookup item =
      existingIncarnation? (s.elementsOf request.unit request.domain) w.options.lookup item

/-- Reused next are the planned items that are to be cut and are not reused yet. -/
theorem mem_newlyReused_iff
    (exist : ∀ id ∈ request.items, (graph.getIn? request.source id).isSome = true)
    (h : ReusesCut graph request options s reused) {known : Incarnations} {planned : PlannedItems}
    (all : planned = (request.walk graph options reused).plannedItems request.items)
    (knows : (request.walk graph options reused).Knows planned known.found request s)
    (notAlways : options.lookup ≠ .always) {id : ItemId} :
    id ∈ (request.walk graph options reused).newlyReused planned known ↔
      id ∉ reused ∧ id ∈ planned.map (·.1) ∧
        ∃ item, graph.getIn? request.source id = some item ∧ request.Cuts graph options s item := by
  subst all
  have incarnated {requested : Bool}
      (hp : (id, requested) ∈ (request.walk graph options reused).plannedItems request.items)
      (applies : options.lookup.appliesTo requested = true) {item : TemplateItem}
      (found : graph.getIn? request.source id = some item) :
      (existingIncarnation? known.found options.lookup item).isSome = true ↔
        request.HasIncarnation s options.lookup item := by
    have same : existingIncarnation? known.found options.lookup item = _ :=
      knows (LookupPolicy.ne_never_of_appliesTo applies) id (List.mem_append_left _ (List.mem_map_of_mem hp)) item
        (TemplateGraph.getIn?_eq_some_iff.mp found).1
    rw [← Store.existingIncarnation?_isSome_iff, same]
    rfl
  rw [Walk.mem_newlyReused]
  constructor
  · rintro ⟨requested, hp, fresh, applies, item, found, some⟩
    refine ⟨fresh, List.mem_map_of_mem hp, item, found, ?_⟩
    exact (cuts_iff_of_planned exist h hp found).mpr
      ⟨notAlways, applies, (incarnated hp applies found).mp some⟩
  · rintro ⟨fresh, hid, item, found, cut⟩
    obtain ⟨⟨_, requested⟩, hp, rfl⟩ := List.mem_map.mp hid
    obtain ⟨-, applies, some⟩ := (cuts_iff_of_planned exist h hp found).mp cut
    exact ⟨requested, hp, fresh, applies, item, found, (incarnated hp applies found).mpr some⟩

/-- Reused are only items that are to be cut, and of the planned items all of them. -/
structure CutsExactly (graph : TemplateGraph) (request : IncarnationRequest)
    (options : ResolveOptions) (s : Store) (reused : List ItemId) : Prop where
  cuts : ReusesCut graph request options s reused
  complete : ∀ id ∈ ((request.walk graph options reused).plannedItems request.items).map (·.1),
    ∀ item, graph.getIn? request.source id = some item → request.Cuts graph options s item →
      id ∈ reused

namespace CutsExactly

variable (h : CutsExactly graph request options s reused)
include h

/-- Of what is planned, exactly what is to be cut is reused. -/
theorem mem_reused_iff {id : ItemId} {item : TemplateItem}
    (planned : id ∈ ((request.walk graph options reused).plannedItems request.items).map (·.1))
    (found : graph.getIn? request.source id = some item) :
    item.id ∈ reused ↔ request.Cuts graph options s item := by
  rw [TemplateGraph.id_of_getIn? found]
  exact ⟨h.cuts.cuts found, h.complete id planned item found⟩

variable (exist : ∀ id ∈ request.items, (graph.getIn? request.source id).isSome = true)
include exist

theorem planned_iff {id : ItemId} :
    id ∈ ((request.walk graph options reused).plannedItems request.items).map (·.1) ↔
      Closure graph request options.Follows (request.Cuts graph options s) id := by
  constructor
  · intro planned
    refine ((mem_plannedItems_iff exist).mp planned).of_cut fun id item member found kept cut => ?_
    exact kept ((h.mem_reused_iff ((mem_plannedItems_iff exist).mpr member) found).mpr cut)
  · intro member
    refine (mem_plannedItems_iff exist).mpr (member.of_cut fun id item _ found kept hid => ?_)
    exact kept (h.cuts.cuts found (TemplateGraph.id_of_getIn? found ▸ hid))

theorem flag_iff {id : ItemId} :
    (id, true) ∈ (request.walk graph options reused).plannedItems request.items ↔
      Closure graph request options.Copies (request.Cuts graph options s) id := by
  constructor
  · intro flagged
    refine ((flag_plannedItems_iff exist).mp flagged).of_cut fun id item member found kept cut => ?_
    have planned := List.mem_map_of_mem (f := (·.1)) ((flag_plannedItems_iff exist).mpr member)
    exact kept ((h.mem_reused_iff planned found).mpr cut)
  · intro member
    refine (flag_plannedItems_iff exist).mpr (member.of_cut fun id item _ found kept hid => ?_)
    exact kept (h.cuts.cuts found (TemplateGraph.id_of_getIn? found ▸ hid))

end CutsExactly

theorem Walk.knows_of_lookUp {w : Walk} {known known' : Incarnations} {planned : PlannedItems}
    (mirrors : known.Mirrors (s.elementsOf request.unit request.domain))
    (found : w.lookUp s.connect request planned known = .ok known') :
    known'.Mirrors (s.elementsOf request.unit request.domain) ∧
      w.Knows planned known'.found request s := by
  obtain ⟨_, found', mirrors', asked⟩ := lookUp_mirrors (w := w) planned mirrors
  cases found.symm.trans found'
  exact ⟨mirrors', fun looksUp id hid item got =>
    mirrors'.existing?_eq (asked looksUp id hid item got)⟩

/-- On a plain store a survey ends with a walk that cuts exactly what is to be cut. -/
theorem Walk.survey_ends (options : ResolveOptions)
    (exist : ∀ id ∈ request.items, (graph.getIn? request.source id).isSome = true) {w : Walk}
    {known : Incarnations}
    (walk : ∃ reused, w = request.walk graph options reused ∧
      ReusesCut graph request options s reused)
    (mirrors : known.Mirrors (s.elementsOf request.unit request.domain)) :
    ∃ reused found, CutsExactly graph request options s reused ∧
      w.survey s.connect request known = .ok ⟨request.walk graph options reused,
        (request.walk graph options reused).plannedItems request.items, found⟩ ∧
      (request.walk graph options reused).Knows
        ((request.walk graph options reused).plannedItems request.items) found request s := by
  fun_induction w.survey s.connect request known with
  | case1 w known planned e failed =>
    obtain ⟨known', found, -⟩ := lookUp_mirrors (w := w) planned mirrors
    cases found.symm.trans failed
  | case2 w known planned known' found always =>
    obtain ⟨reused, rfl, cuts⟩ := walk
    refine ⟨reused, known'.found, ⟨cuts, fun id hid item _ cut => ?_⟩, rfl,
      (knows_of_lookUp mirrors found).2⟩
    change options.lookup = .always at always
    simp only [IncarnationRequest.Cuts, always] at cut
  | case3 w known planned known' found notAlways w' less ih =>
    obtain ⟨reused, rfl, cuts⟩ := walk
    obtain ⟨mirrors', knows⟩ := knows_of_lookUp mirrors found
    refine ih ⟨reused ++ _, rfl, List.forall_mem_append.mpr ⟨cuts, fun id hid => ?_⟩⟩ mirrors'
    exact ((mem_newlyReused_iff exist cuts rfl knows notAlways).mp hid).2.2
  | case4 w known planned known' found notAlways w' stuck =>
    obtain ⟨reused, rfl, cuts⟩ := walk
    obtain ⟨mirrors', knows⟩ := knows_of_lookUp mirrors found
    refine ⟨reused, known'.found, ⟨cuts, fun id hid item inNamespace cut => ?_⟩, rfl, knows⟩
    by_contra fresh
    have new := (mem_newlyReused_iff exist cuts rfl knows notAlways).mpr
      ⟨fresh, hid, item, inNamespace, cut⟩
    exact stuck (unreused_lt new)

end

/-- A survey that succeeds in spite of an outage is the one over the plain store. -/
theorem Walk.survey_connect {w : Walk} {c : Connection} {request : IncarnationRequest}
    {known : Incarnations} {v : Survey} (h : w.survey c request known = .ok v) :
    w.survey c.store.connect request known = .ok v := by
  fun_induction w.survey c request known with
  | case1 => cases h
  | case2 w known planned known' found always =>
    rw [survey, lookUp_connect found]
    exact (if_pos always).trans h
  | case3 w known planned known' found notAlways w' less ih =>
    rw [survey, lookUp_connect found]
    exact (if_neg notAlways).trans ((if_pos less).trans (ih h))
  | case4 w known planned known' found notAlways w' stuck =>
    rw [survey, lookUp_connect found]
    exact (if_neg notAlways).trans ((if_neg stuck).trans h)

/-! ## Settled surveys -/

/-- The survey of a walk that knows all that the unit holds in the domain. -/
def settledSurvey (graph : TemplateGraph) (request : IncarnationRequest) (options : ResolveOptions)
    (s : Store) (reused : List ItemId) : Survey where
  walk := request.walk graph options reused
  planned := (request.walk graph options reused).plannedItems request.items
  found := s.elementsOf request.unit request.domain

theorem PlannedItems.position?_eq_none_iff {planned : PlannedItems} {id : ItemId} :
    planned.position? id = none ↔ id ∉ planned.map (·.1) := by
  simp only [position?, List.findIdx?_eq_none_iff, beq_eq_false_iff_ne, ne_eq, List.mem_map,
    not_exists, not_and]

theorem PlannedItems.position?_eq_some_iff {planned : PlannedItems}
    (nodup : (planned.map (·.1)).Nodup) {id : ItemId} {n : Nat} :
    planned.position? id = some n ↔ (planned.map (·.1))[n]? = some id := by
  have at_position {n : Nat} (h : planned.position? id = some n) :
      (planned.map (·.1))[n]? = some id := by
    obtain ⟨inside, same, -⟩ := List.findIdx?_eq_some_iff_getElem.mp h
    rw [List.getElem?_map, List.getElem?_eq_getElem inside, Option.map_some, beq_iff_eq.mp same]
  refine ⟨at_position, fun h => ?_⟩
  cases position : planned.position? id with
  | none => exact absurd (List.mem_of_getElem? h) (position?_eq_none_iff.mp position)
  | some m =>
    have inside : m < (planned.map (·.1)).length :=
      (List.getElem?_eq_some_iff.mp (at_position position)).1
    rw [(List.getElem?_inj inside nodup).mp ((at_position position).trans h.symm)]

theorem Walk.mem_unplannedTargets {w : Walk} {planned : PlannedItems} {t : ItemId} :
    t ∈ w.unplannedTargets planned ↔
      (∃ id ∈ planned.map (·.1), ∃ item, w.item? id = some item ∧
        ∃ r ∈ w.followed item, t ∈ r.namedItems) ∧
      t ∉ planned.map (·.1) ∧ (w.item? t).isSome = true := by
  rw [unplannedTargets, mem_distinct, List.mem_filter, Bool.and_eq_true, Bool.not_eq_true',
    ← Bool.not_eq_true, PlannedItems.holds_iff]
  refine and_congr_left fun _ => ?_
  simp only [List.mem_flatMap, List.mem_map]
  constructor
  · rintro ⟨p, hp, ht⟩
    cases found : w.item? p.1 with
    | none => simp [found] at ht
    | some item =>
      rw [found, List.mem_flatMap] at ht
      exact ⟨p.1, ⟨p, hp, rfl⟩, item, found, ht⟩
  · rintro ⟨_, ⟨p, hp, rfl⟩, item, found, ht⟩
    refine ⟨p, hp, ?_⟩
    rw [found, List.mem_flatMap]
    exact ht

/-- What is wrong with an item that a reference names: it is missing, or it lives elsewhere. -/
def TemplateGraph.issue? (g : TemplateGraph) (nspace : ItemNamespace) (origin : ItemId)
    (reference : ReferenceId) (named : ItemId) : Option IntegrityIssue :=
  match g.get? named with
  | none => some (.danglingReference origin reference named)
  | some item =>
    if item.nspace ≠ nspace then some (.crossNamespace origin reference named item.nspace)
    else none

/-- The issues of a reference: that of its target or, if there is none, those of its auxiliary
items. -/
def TemplateGraph.issuesOf (g : TemplateGraph) (nspace : ItemNamespace) (origin : ItemId)
    (r : TailoringReference) : List IntegrityIssue :=
  match g.issue? nspace origin r.id r.target with
  | some issue => [issue]
  | none => r.kind.auxiliaryItems.filterMap fun a => g.issue? nspace origin r.id a.2

namespace Survey

variable {w : Walk} {planned : PlannedItems} {found found' : List Element}

/-! ### What descriptions read of the known incarnations -/

/-- A target depends only on what is known of it if it is not planned. -/
theorem target_congr {origin t : ItemId} {reference : ReferenceId}
    (same : w.options.lookup ≠ .never → t ∉ planned.map (·.1) → ∀ item, w.item? t = some item →
      existingIncarnation? found w.options.lookup item =
        existingIncarnation? found' w.options.lookup item) :
    (⟨w, planned, found⟩ : Survey).target origin reference t =
      (⟨w, planned, found'⟩ : Survey).target origin reference t := by
  unfold target
  cases got : w.graph.get? t with
  | none => rfl
  | some item =>
    simp only
    split
    · rfl
    · next inNamespace =>
      cases position : planned.position? t with
      | some n => rfl
      | none =>
        simp only
        split
        · next applies =>
          have hitem : w.item? t = some item :=
            TemplateGraph.getIn?_eq_some_iff.mpr ⟨got, Decidable.not_not.mp inNamespace⟩
          simp only [existing?, same (LookupPolicy.ne_never_of_appliesTo applies)
            (PlannedItems.position?_eq_none_iff.mp position) item hitem]
        · rfl

theorem resolve?_congr {origin : ItemId} {r : TailoringReference}
    (same : ∀ t ∈ r.namedItems, (⟨w, planned, found⟩ : Survey).target origin r.id t =
      (⟨w, planned, found'⟩ : Survey).target origin r.id t) :
    (⟨w, planned, found⟩ : Survey).resolve? origin r =
      (⟨w, planned, found'⟩ : Survey).resolve? origin r := by
  have auxiliary : (⟨w, planned, found⟩ : Survey).auxiliaryTargets origin r =
      (⟨w, planned, found'⟩ : Survey).auxiliaryTargets origin r := by
    refine List.filterMap_congr fun (role, t) ha => ?_
    have named : t ∈ r.namedItems := List.mem_cons_of_mem _ (List.mem_map_of_mem ha)
    simp only [same t named]
  unfold resolve?
  rw [same r.target List.mem_cons_self, auxiliary]

/-- Issues are a matter of the graph alone. -/
theorem issue?_eq (v : Survey) (origin : ItemId) (r : TailoringReference) (t : ItemId) :
    v.issue? origin r t = v.walk.graph.issue? v.walk.nspace origin r.id t := by
  unfold issue? target TemplateGraph.issue?
  cases v.walk.graph.get? t with
  | none => rfl
  | some item =>
    by_cases outside : item.nspace ≠ v.walk.nspace
    · simp only [if_pos outside]
    · simp only [if_neg outside]
      cases v.planned.position? t with
      | some n => rfl
      | none => by_cases applies : v.walk.options.lookup.appliesTo false = true <;> simp [applies]

theorem issuesOf_eq (v : Survey) (origin : ItemId) :
    v.issuesOf origin = v.walk.graph.issuesOf v.walk.nspace origin := by
  funext r
  rw [issuesOf, TemplateGraph.issuesOf, issue?_eq]
  cases v.walk.graph.issue? v.walk.nspace origin r.id r.target with
  | some issue => rfl
  | none => exact List.filterMap_congr fun a _ => v.issue?_eq origin r a.2

theorem issues_eq (w : Walk) (planned : PlannedItems) (found found' : List Element) :
    (⟨w, planned, found⟩ : Survey).issues = (⟨w, planned, found'⟩ : Survey).issues := by
  simp only [issues, issuesOf_eq]

/-! ### Known is enough -/

section

variable {request : IncarnationRequest} {s : Store} (knows : w.Knows planned found request s)
include knows

theorem disposition_settled {id : ItemId} {item : TemplateItem} {requested : Bool}
    {element : ElementId} (hid : id ∈ planned.map (·.1)) (hitem : w.item? id = some item) :
    (⟨w, planned, found⟩ : Survey).disposition item requested element =
      (⟨w, planned, s.elementsOf request.unit request.domain⟩ : Survey).disposition item requested
        element := by
  unfold Survey.disposition
  simp only
  split
  · next applies =>
    simp only [existing?, knows (LookupPolicy.ne_never_of_appliesTo applies) id
      (List.mem_append_left _ hid) item (TemplateGraph.getIn?_eq_some_iff.mp hitem).1]
  · rfl

theorem describe_settled {id : ItemId} {item : TemplateItem} {requested : Bool}
    {element : ElementId} (hid : id ∈ planned.map (·.1)) (hitem : w.item? id = some item) :
    (⟨w, planned, found⟩ : Survey).describe item requested element =
      (⟨w, planned, s.elementsOf request.unit request.domain⟩ : Survey).describe item requested
        element := by
  unfold describe
  rw [disposition_settled knows hid hitem]
  congr 1
  refine List.filterMap_congr fun r hr => resolve?_congr fun t ht => ?_
  refine target_congr fun looksUp unplanned target htarget => ?_
  have listed : t ∈ w.unplannedTargets planned := Walk.mem_unplannedTargets.mpr
    ⟨⟨id, hid, item, hitem, r, hr, ht⟩, unplanned, Option.isSome_of_eq_some htarget⟩
  exact knows looksUp t (List.mem_append_right _ listed) target
    (TemplateGraph.getIn?_eq_some_iff.mp htarget).1

theorem describeFrom_settled (fresh : Nat → ElementId) (n : Nat) {rest : PlannedItems}
    (sub : rest ⊆ planned) :
    (⟨w, planned, found⟩ : Survey).describeFrom fresh n rest =
      (⟨w, planned, s.elementsOf request.unit request.domain⟩ : Survey).describeFrom fresh n
        rest := by
  induction rest generalizing n with
  | nil => rfl
  | cons p rest ih =>
    obtain ⟨id, requested⟩ := p
    obtain ⟨hp, sub'⟩ := List.cons_subset.mp sub
    unfold describeFrom
    simp only
    cases hitem : w.item? id with
    | none => exact ih n sub'
    | some item =>
      simp only
      rw [describe_settled knows (List.mem_map_of_mem hp) hitem, ih _ sub']

theorem descriptions_settled (fresh : Nat → ElementId) :
    (⟨w, planned, found⟩ : Survey).descriptions fresh =
      (⟨w, planned, s.elementsOf request.unit request.domain⟩ : Survey).descriptions fresh :=
  describeFrom_settled knows fresh 0 (List.Subset.refl planned)

end

end Survey

end TemplateCatalog
