import TemplateCatalog.Proofs.Plan.Resolution

/-!
# What becomes of the references of an item

A resolution has to account for the admitted references of every item that it
describes, unless the item is cut. A reference whose target is an item of the
namespace is resolved, without those of its auxiliary items that are not. What
is left out in either way is an issue, and nothing else is.

Results:
1. `TemplateGraph.issue?_eq_none_iff`: issues are raised for what is not an item of
   the namespace.
2. `settled_accountable`: the references that the last walk follows are those to be
   accounted for.
3. `resolve_accounts`: a plan that is resolved without merging restates them in their
   order, and raises their issues in the same order.
-/

namespace TemplateCatalog

/-! ## Accounts -/

/-- The policy has the references of reused items left out. -/
def LookupPolicy.cuts : LookupPolicy → Bool
  | .sameVersion | .forReferencedItems => true
  | .never | .always => false

/-- The description reuses an element, under a policy that leaves its references out. -/
def IncarnationDescription.isCut (d : IncarnationDescription) (p : LookupPolicy) : Bool :=
  p.cuts && !d.disposition.isCreate

/-- The references that a description has to account for. -/
def ResolveOptions.accountable (o : ResolveOptions) (graph : TemplateGraph)
    (nspace : ItemNamespace) (d : IncarnationDescription) : List TailoringReference :=
  if d.isCut o.lookup then []
  else
    match graph.getIn? nspace d.item with
    | none => []
    | some item => item.references.filter fun r => o.filter.admits r.type

/-- A resolved reference says what a reference of the graph says about the items of a namespace. -/
structure ResolvedReference.Restates (x : ResolvedReference) (graph : TemplateGraph)
    (nspace : ItemNamespace) (r : TailoringReference) : Prop where
  reference : x.reference = r.id
  targetItem : x.targetItem = r.target
  kind : x.kind = r.kind
  auxiliary : x.auxiliary.map (fun a => (a.role, a.item)) =
    r.kind.auxiliaryItems.filter fun a => (graph.getIn? nspace a.2).isSome

/-- Every reference that a plan has to account for is restated or is an issue. -/
structure IncarnationPlan.Accounts (plan : IncarnationPlan) (graph : TemplateGraph)
    (nspace : ItemNamespace) (options : ResolveOptions) : Prop where
  exist : ∀ d ∈ plan.descriptions, (graph.getIn? nspace d.item).isSome = true
  cut : ∀ d ∈ plan.descriptions, d.isCut options.lookup = true →
    d.references = [] ∧ ∀ issue ∈ plan.issues, issue.origin ≠ d.item
  /-- Restated are, in their order, the references whose target is an item of the namespace. -/
  references : ∀ d ∈ plan.descriptions,
    List.Forall₂ (fun r (x : ResolvedReference) => x.Restates graph nspace r)
      ((options.accountable graph nspace d).filter fun r => (graph.getIn? nspace r.target).isSome)
      d.references
  issues : plan.issues = plan.descriptions.flatMap fun d =>
    (options.accountable graph nspace d).flatMap (graph.issuesOf nspace d.item)

/-! ## Issues -/

namespace TemplateGraph

variable {g : TemplateGraph} {nspace : ItemNamespace} {origin : ItemId}

theorem issue?_eq_none_iff {reference : ReferenceId} {named : ItemId} :
    g.issue? nspace origin reference named = none ↔ (g.getIn? nspace named).isSome = true := by
  unfold issue? getIn?
  cases g.get? named with
  | none => simp
  | some item => simp

theorem origin_of_issue? {reference : ReferenceId} {named : ItemId} {issue : IntegrityIssue}
    (h : g.issue? nspace origin reference named = some issue) : issue.origin = origin := by
  unfold issue? at h
  split at h
  · cases h
    rfl
  · split at h
    · cases h
      rfl
    · cases h

theorem origin_of_mem_issuesOf {r : TailoringReference} {issue : IntegrityIssue}
    (h : issue ∈ g.issuesOf nspace origin r) : issue.origin = origin := by
  unfold issuesOf at h
  split at h
  · next raised =>
    cases List.mem_singleton.mp h
    exact origin_of_issue? raised
  · obtain ⟨a, -, raised⟩ := List.mem_filterMap.mp h
    exact origin_of_issue? raised

end TemplateGraph

/-! ## Restated references -/

theorem LookupPolicy.cuts_iff_of_appliesTo {p : LookupPolicy} {requested : Bool}
    (h : p.appliesTo requested = true) : p.cuts = true ↔ p ≠ .always := by
  cases p with
  | never => cases h
  | always => simp [cuts]
  | sameVersion => simp [cuts]
  | forReferencedItems => simp [cuts]

namespace Survey

variable {v : Survey}

/-- An element is reused where the policy looks and finds one. -/
theorem reuses_iff {item : TemplateItem} {requested : Bool} {new : ElementId} :
    (v.disposition item requested new).isCreate = false ↔
      v.walk.options.lookup.appliesTo requested = true ∧ (v.existing? item).isSome = true := by
  unfold disposition
  split
  · next applies => cases v.existing? item <;> simp [Disposition.isCreate, applies]
  · next skips => simp [Disposition.isCreate, skips]

/-- The targets that are found are items of the namespace. -/
theorem isSome_target_iff (origin : ItemId) (r : TailoringReference) (t : ItemId) :
    (v.target origin r.id t).toOption.isSome = true ↔ (v.walk.item? t).isSome = true := by
  have raised : v.issue? origin r t = none ↔ (v.walk.item? t).isSome = true := by
    rw [issue?_eq]
    exact TemplateGraph.issue?_eq_none_iff
  rw [← raised, issue?]
  cases v.target origin r.id t with
  | error issue => simp [Except.toOption]
  | ok target => simp [Except.toOption]

/-- Of the auxiliary items those are restated that are items of the namespace. -/
theorem auxiliaryTargets_items (origin : ItemId) (r : TailoringReference) :
    (v.auxiliaryTargets origin r).map (fun a => (a.role, a.item)) =
      r.kind.auxiliaryItems.filter fun a => (v.walk.item? a.2).isSome := by
  rw [auxiliaryTargets, List.map_filterMap, ← List.filterMap_eq_filter]
  refine List.filterMap_congr fun (role, item) _ => ?_
  have found := v.isSome_target_iff origin r item
  cases target : v.target origin r.id item with
  | error issue =>
    rw [target] at found
    have missing : ¬ (v.walk.item? item).isSome = true := found.not.mp nofun
    simp [target, Except.toOption, Option.guard, missing]
  | ok t =>
    rw [target] at found
    have present : (v.walk.item? item).isSome = true := found.mp rfl
    simp [target, Except.toOption, Option.guard, present]

theorem filterMap_resolve?_restates (origin : ItemId) (rs : List TailoringReference) :
    List.Forall₂ (fun r (x : ResolvedReference) => x.Restates v.walk.graph v.walk.nspace r)
      (rs.filter fun r => (v.walk.item? r.target).isSome) (rs.filterMap (v.resolve? origin)) := by
  induction rs with
  | nil => exact .nil
  | cons r rest ih =>
    have found := v.isSome_target_iff origin r r.target
    cases target : v.target origin r.id r.target with
    | error issue =>
      have broken : v.resolve? origin r = none := by
        rw [resolve?, target]
        rfl
      rw [target] at found
      rw [List.filterMap_cons_none broken, List.filter_cons, if_neg (found.not.mp nofun)]
      exact ih
    | ok t =>
      have resolved : v.resolve? origin r =
          some ⟨r.id, r.target, r.kind, t, v.auxiliaryTargets origin r⟩ := by
        rw [resolve?, target]
        rfl
      rw [target] at found
      rw [List.filterMap_cons_some resolved, List.filter_cons, if_pos (found.mp rfl)]
      exact .cons ⟨rfl, rfl, rfl, auxiliaryTargets_items origin r⟩ ih

theorem Describes.applies_of_reuse {p : ItemId × Bool} {d : IncarnationDescription}
    (h : v.Describes p d) (reuses : d.disposition.isCreate = false) :
    v.walk.options.lookup.appliesTo p.2 = true := by
  obtain ⟨item, new, -, thins⟩ := h
  rw [thins.disposition] at reuses
  exact (reuses_iff.mp reuses).1

end Survey

/-! ## Plans -/

section

variable {graph : TemplateGraph} {s : Store} (fresh : Nat → ElementId)
  {request : IncarnationRequest} {options : ResolveOptions} {reused : List ItemId}
  {p : ItemId × Bool} {d : IncarnationDescription} {item : TemplateItem}
  (exist : ∀ id ∈ request.items, (graph.getIn? request.source id).isSome = true)
  (cuts : CutsExactly graph request options s reused)
include exist cuts

/-- The last walk leaves out the references of the items that are cut. -/
theorem isCut_iff_mem_reused
    (hp : p ∈ (request.walk graph options reused).plannedItems request.items)
    (described : (settledSurvey graph request options s reused).Describes p d)
    (found : graph.getIn? request.source d.item = some item) :
    d.isCut options.lookup = true ↔ item.id ∈ reused := by
  cases described.key_eq
  obtain ⟨new, thins⟩ := described.thins found
  have planned := List.mem_map_of_mem (f := (·.1)) hp
  have given : d.disposition =
      (settledSurvey graph request options s reused).disposition item d.requested new :=
    thins.disposition
  have incarnated : ((settledSurvey graph request options s reused).existing? item).isSome = true ↔
      request.HasIncarnation s options.lookup item := Store.existingIncarnation?_isSome_iff
  have policy : (settledSurvey graph request options s reused).walk.options = options := rfl
  rw [cuts.mem_reused_iff planned found, cuts_iff_of_planned exist cuts.cuts hp found,
    IncarnationDescription.isCut, Bool.and_eq_true, Bool.not_eq_true', given, Survey.reuses_iff,
    incarnated, policy]
  refine and_congr_left fun ⟨applies, _⟩ => ?_
  exact LookupPolicy.cuts_iff_of_appliesTo applies

theorem settled_accountable
    (hd : d ∈ ((settledSurvey graph request options s reused).plan request fresh).descriptions) :
    ∃ item, graph.getIn? request.source d.item = some item ∧
      (request.walk graph options reused).followed item =
        options.accountable graph request.source d := by
  obtain ⟨p, hp, described⟩ := forall₂_mem_right
    (settled_describes graph s fresh request options reused) hd
  obtain ⟨item, found, -⟩ := described.disposes
  have cut := isCut_iff_mem_reused exist cuts hp described found
  refine ⟨item, found, ?_⟩
  unfold Walk.followed ResolveOptions.accountable
  rw [found]
  by_cases hid : item.id ∈ reused
  · rw [if_pos (cut.mpr hid)]
    exact if_pos (List.contains_iff_mem.mpr hid)
  · rw [if_neg (cut.not.mpr hid)]
    exact if_neg (List.contains_iff_mem.not.mpr hid)

theorem settled_issues :
    ((settledSurvey graph request options s reused).plan request fresh).issues =
      ((settledSurvey graph request options s reused).plan request fresh).descriptions.flatMap
        fun d => (options.accountable graph request.source d).flatMap
          (graph.issuesOf request.source d.item) := by
  have keys := settled_keys graph s fresh request options reused
  show (settledSurvey graph request options s reused).issues = _
  unfold Survey.issues
  rw [show (settledSurvey graph request options s reused).planned = _ from keys.symm,
    List.flatMap_map]
  refine List.flatMap_congr fun d hd => ?_
  obtain ⟨item, found, followed⟩ := settled_accountable fresh exist cuts hd
  rw [show (settledSurvey graph request options s reused).walk.item? d.item = some item from found]
  show ((request.walk graph options reused).followed item).flatMap _ = _
  rw [followed, Survey.issuesOf_eq, TemplateGraph.id_of_getIn? found]
  rfl

theorem settled_references (unmerged : options.mergeBidirectional = false)
    (hd : d ∈ ((settledSurvey graph request options s reused).plan request fresh).descriptions) :
    List.Forall₂ (fun r (x : ResolvedReference) => x.Restates graph request.source r)
      ((options.accountable graph request.source d).filter fun r =>
        (graph.getIn? request.source r.target).isSome)
      d.references := by
  obtain ⟨item, found, followed⟩ := settled_accountable fresh exist cuts hd
  have all : ((settledSurvey graph request options s reused).plan request fresh).descriptions =
      (settledSurvey graph request options s reused).descriptions fresh :=
    if_neg (unmerged ▸ Bool.false_ne_true)
  rw [all] at hd
  obtain ⟨p, -, other, new, found', rfl⟩ := forall₂_mem_right (Survey.describeFrom_forall₂ fresh 0
    fun _ hp => Walk.plannedItems_exist request.items (List.mem_map_of_mem hp)) hd
  have named : other.id = p.1 := TemplateGraph.id_of_getIn? found'
  have sameItem : graph.getIn? request.source other.id = some item := found
  rw [named] at sameItem
  cases sameItem.symm.trans found'
  rw [← followed]
  exact Survey.filterMap_resolve?_restates (v := settledSurvey graph request options s reused)
    item.id _

end

/-- No reference is lost, invented or dropped in silence: a plan that is resolved without merging
accounts for the admitted references of the items that it describes. -/
theorem resolve_accounts (graph : TemplateGraph) (c : Connection) (fresh : Nat → ElementId)
    (request : IncarnationRequest) (options : ResolveOptions) (plan : IncarnationPlan)
    (unmerged : options.mergeBidirectional = false)
    (resolved : resolve graph c fresh request options = .ok plan) :
    plan.Accounts graph request.source options := by
  obtain ⟨-, exist, reused, cuts, rfl⟩ := resolve_eq_ok (resolve_connect resolved)
  have uncounted {d : IncarnationDescription} (cut : d.isCut options.lookup = true) :
      options.accountable graph request.source d = [] := if_pos cut
  have references := fun d => settled_references (d := d) fresh exist cuts unmerged
  have issues := settled_issues fresh exist cuts
  refine ⟨settled_exist graph c.store fresh request options reused, fun d hd cut => ⟨?_, ?_⟩,
    references, issues⟩
  · have none := references d hd
    rw [uncounted cut] at none
    exact List.forall₂_nil_left_iff.mp none
  · intro issue raised same
    rw [issues] at raised
    obtain ⟨d', hd', raised⟩ := List.mem_flatMap.mp raised
    obtain ⟨r, hr, raised⟩ := List.mem_flatMap.mp raised
    -- no other description is of the same item
    have named : d'.item = d.item := (TemplateGraph.origin_of_mem_issuesOf raised).symm.trans same
    have nodup := settled_nodup graph c.store fresh request options reused
    cases List.inj_on_of_nodup_map nodup hd' hd named
    rw [uncounted cut] at hr
    cases hr

/-- An asset with a part that is cut, a reference that is not admitted, one to an item that is
missing, one to an item of a profile, and a risk whose owner is missing. -/
theorem resolve_accounts_of_risk :
    let domain : DomainId := ⟨⟨1⟩⟩
    let item (n : Nat) (references : List TailoringReference) : TemplateItem :=
      { id := ⟨⟨n⟩⟩, nspace := .domain domain, name := "item", elementType := .asset, references }
    let reference (n t : Nat) (kind : ReferenceKind) : TailoringReference := ⟨⟨⟨n⟩⟩, ⟨⟨t⟩⟩, kind⟩
    let risk : ReferenceKind := .risk (some ⟨⟨90⟩⟩) (some ⟨⟨12⟩⟩) []
    let whole := item 10 [reference 20 11 .part, reference 21 12 (.plainLink "uses"),
      reference 22 91 .part, reference 23 13 .member, reference 24 12 risk]
    let part := item 11 [reference 25 92 .part]
    let foreign : TemplateItem := { item 13 [] with nspace := .profile ⟨⟨3⟩⟩ }
    let graph : TemplateGraph := ⟨[whole, part, item 12 [], foreign], by decide⟩
    let held : Element :=
      { id := ⟨⟨4⟩⟩, owner := ⟨⟨2⟩⟩, domain, name := "held", elementType := .asset
        appliedItem := some ⟨part.id, part.version⟩ }
    let s : Store := { elements := .ofList [held] }
    let request : IncarnationRequest := { unit := ⟨⟨2⟩⟩, domain, items := [whole.id] }
    let options : ResolveOptions :=
      { lookup := .sameVersion, filter := .ofSets none (some (.ofList [.link])) }
    let fresh (n : Nat) : ElementId := ⟨⟨n + 50⟩⟩
    ∃ plan, options.mergeBidirectional = false ∧
      resolve graph s.connect fresh request options = .ok plan ∧
      plan.descriptions.map (fun d => (d.item, d.isCut options.lookup,
        d.references.map (·.reference))) =
        [(whole.id, false, [⟨⟨20⟩⟩, ⟨⟨24⟩⟩]), (part.id, true, []), (⟨⟨12⟩⟩, false, [])] ∧
      plan.issues = [.danglingReference whole.id ⟨⟨22⟩⟩ ⟨⟨91⟩⟩,
        .crossNamespace whole.id ⟨⟨23⟩⟩ foreign.id foreign.nspace,
        .danglingReference whole.id ⟨⟨24⟩⟩ ⟨⟨90⟩⟩] ∧
      plan.Accounts graph request.source options := by
  intro domain item reference risk whole part foreign graph held s request options fresh
  have found : (resolve graph s.connect fresh request options).toOption.map (fun plan =>
      (plan.descriptions.map fun d => (d.item, d.isCut options.lookup,
        d.references.map (·.reference)), plan.issues)) = some
      ([(whole.id, false, [⟨⟨20⟩⟩, ⟨⟨24⟩⟩]), (part.id, true, []), (⟨⟨12⟩⟩, false, [])],
        [.danglingReference whole.id ⟨⟨22⟩⟩ ⟨⟨91⟩⟩,
          .crossNamespace whole.id ⟨⟨23⟩⟩ foreign.id foreign.nspace,
          .danglingReference whole.id ⟨⟨24⟩⟩ ⟨⟨90⟩⟩]) := by decide +kernel
  obtain ⟨plan, resolved, told⟩ := Option.map_eq_some_iff.mp found
  rw [except_toOption_eq_some] at resolved
  obtain ⟨descriptions, issues⟩ := Prod.mk.inj told
  exact ⟨plan, rfl, resolved, descriptions, issues,
    resolve_accounts graph s.connect fresh request options plan rfl resolved⟩

end TemplateCatalog
