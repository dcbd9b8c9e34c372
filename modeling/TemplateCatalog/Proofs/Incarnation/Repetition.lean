import TemplateCatalog.Proofs.Incarnation.Idempotence
import TemplateCatalog.Proofs.Plan.Merging

/-!
# Resolving again under a policy that cuts

Incarnations are never lost, so after an application at least the items are cut that
were cut before it. The second walk therefore plans nothing that the first did not
plan, and what the policy looks for it finds, as the plan that was applied describes
it.

* Under `sameVersion` the requested items themselves are cut, and nothing is left but
  them.
* Under `forReferencedItems` requested items and their copies are never cut. They are
  flagged again and created again; everything else is reused.

Results:
1. `Cuts.after`, `Closure.of_after`: more is cut, so less is planned.
2. `plannedItems_again`: under `sameVersion` only the requested items are planned.
3. `settled_requestedItems`: under `forReferencedItems` the same items count as
   requested, whatever the store holds.
4. `repeats_again`: what the policy looks for both times is reused.
5. `resolve_repeated`: what the second resolution gives under either policy.
-/

namespace TemplateCatalog

/-- The description reuses, without references, the element that stands for its item in a plan. -/
structure IncarnationDescription.Repeats (d : IncarnationDescription) (plan : IncarnationPlan) :
    Prop where
  reuses : ∃ first ∈ plan.descriptions, first.item = d.item ∧
    d.disposition = .reuse first.disposition.element
  references : d.references = []

/-- The items that count as requested. -/
def IncarnationPlan.requestedItems (p : IncarnationPlan) : List ItemId :=
  (p.descriptions.filter (·.requested)).map (·.item)

section

variable {graph : TemplateGraph} {domain : Domain} {s s' : Store} {request : IncarnationRequest}
  {options : ResolveOptions} {catalog : DomainId} {reused reused' : List ItemId}
  {fresh fresh' : Nat → ElementId} {applied : AppliedIncarnation} {ws : Workspace}
  {item : TemplateItem} {id : ItemId} {d : IncarnationDescription}

/-- Under `forReferencedItems`, copies of requested items are not cut. -/
theorem copied_iff (policy : options.lookup = .forReferencedItems) :
    Closure graph request options.Copies (request.Cuts graph options s) id ↔
      Closure graph request options.Copies (fun _ => False) id := by
  refine Closure.iff_uncut fun id item member found cut => ?_
  simp only [IncarnationRequest.Cuts, policy] at cut
  exact cut.2 (TemplateGraph.id_of_getIn? found ▸ member)

variable (committed : Store.Committed s ⟨s.connect, graph, domain,
    (settledSurvey graph request options s reused).plan request fresh⟩ applied s' ws)
include committed

/-- Incarnations are not lost. -/
theorem IncarnationRequest.HasIncarnation.after {p : LookupPolicy}
    (h : request.HasIncarnation s p item) : request.HasIncarnation s' p item := by
  have sameDomain : domain.id = request.domain := committed.sameDomain.symm
  have existing : existingIncarnation? (s'.elementsOf request.unit request.domain) p item =
      (existingIncarnation? (s.elementsOf request.unit request.domain) p item).or
        (existingIncarnation? ws.created p item) := sameDomain ▸ committed.existing?_eq p item
  rw [← Store.existingIncarnation?_isSome_iff] at h ⊢
  rw [existing, Option.isSome_or, h, Bool.true_or]

theorem IncarnationRequest.Cuts.after (h : request.Cuts graph options s item) :
    request.Cuts graph options s' item := by
  unfold IncarnationRequest.Cuts at h ⊢
  cases policy : options.lookup with
  | never => simp [policy] at h
  | always => simp [policy] at h
  | sameVersion =>
    simp only [policy] at h
    exact h.after committed
  | forReferencedItems =>
    simp only [policy] at h
    exact ⟨h.1.after committed, h.2⟩

/-- More is cut, so less is planned. -/
theorem Closure.of_after {leads : TailoringReference → ItemId → Prop}
    (h : Closure graph request leads (request.Cuts graph options s') id) :
    Closure graph request leads (request.Cuts graph options s) id :=
  h.of_cut fun _ _ _ _ kept cut => kept (cut.after committed)

variable (exist : ∀ id ∈ request.items, (graph.getIn? request.source id).isSome = true)
  (cuts : CutsExactly graph request options s reused)
  (cuts' : CutsExactly graph request options s' reused')
include exist cuts cuts'

/-- What is planned now was described before. -/
theorem described_before
    (planned : id ∈ ((request.walk graph options reused').plannedItems request.items).map (·.1)) :
    ∃ first ∈ ((settledSurvey graph request options s reused).plan request fresh).descriptions,
      first.item = id := by
  have before := ((cuts'.planned_iff exist).mp planned).of_after committed
  rw [← cuts.planned_iff exist, ← settled_items graph s fresh request options reused] at before
  exact List.mem_map.mp before

variable (inCatalog : request.source = .domain catalog)
include inCatalog

/-- Under `sameVersion` every requested item is cut. -/
theorem plannedItems_again (policy : options.lookup = .sameVersion) :
    (request.walk graph options reused').plannedItems request.items =
      (distinct request.items).map (·, true) := by
  refine Walk.plannedItems_of_no_leads exist fun id hid => Walk.leads_of_reused ?_
  have planned := (cuts'.planned_iff exist).mpr (.requested hid)
  obtain ⟨first, hfirst, rfl⟩ := described_before committed exist cuts cuts' planned
  obtain ⟨item, found⟩ := Option.isSome_iff_exists.mp (exist first.item hid)
  refine cuts'.complete first.item planned item found ?_
  have existing := existing?_of_planned committed inCatalog hfirst (policy ▸ rfl) found
  simp only [IncarnationRequest.Cuts, policy] at existing ⊢
  exact Store.existingIncarnation?_isSome_iff.mp (Option.isSome_of_eq_some existing)

end

/-! ## Descriptions -/

theorem IncarnationPlan.mem_requestedItems {p : IncarnationPlan} {id : ItemId} :
    id ∈ p.requestedItems ↔ (id, true) ∈ p.descriptions.map fun d => (d.item, d.requested) := by
  simp only [requestedItems, List.mem_map, List.mem_filter, Prod.mk.injEq]
  constructor
  · rintro ⟨d, ⟨hd, requested⟩, rfl⟩
    exact ⟨d, hd, rfl, requested⟩
  · rintro ⟨d, hd, rfl, requested⟩
    exact ⟨d, ⟨hd, requested⟩, rfl⟩

section

variable {graph : TemplateGraph} {domain : Domain} {s s' : Store} {request : IncarnationRequest}
  {options : ResolveOptions} {catalog : DomainId} {reused reused' : List ItemId}
  {fresh fresh' : Nat → ElementId} {applied : AppliedIncarnation} {ws : Workspace}
  {id : ItemId} {first d : IncarnationDescription}
  (exist : ∀ id ∈ request.items, (graph.getIn? request.source id).isSome = true)

include exist in
/-- Under `forReferencedItems` the store does not matter to what counts as requested. -/
theorem settled_requestedItems (policy : options.lookup = .forReferencedItems)
    (cuts : CutsExactly graph request options s reused) :
    id ∈ ((settledSurvey graph request options s reused).plan request fresh).requestedItems ↔
      Closure graph request options.Copies (fun _ => False) id := by
  rw [IncarnationPlan.mem_requestedItems, settled_keys, cuts.flag_iff exist, copied_iff policy]

/-- A description counts as requested if its item does. -/
theorem requested_iff_mem_requestedItems
    (hd : d ∈ ((settledSurvey graph request options s reused).plan request fresh).descriptions) :
    d.requested = true ↔ d.item ∈
      ((settledSurvey graph request options s reused).plan request fresh).requestedItems := by
  unfold IncarnationPlan.requestedItems
  constructor
  · exact fun requested => List.mem_map_of_mem (List.mem_filter.mpr ⟨hd, requested⟩)
  · intro listed
    obtain ⟨other, hother, named⟩ := List.mem_map.mp listed
    obtain ⟨hother, requested⟩ := List.mem_filter.mp hother
    have nodup := settled_nodup graph s fresh request options reused
    cases List.inj_on_of_nodup_map nodup hother hd named
    exact requested

variable (committed : Store.Committed s ⟨s.connect, graph, domain,
    (settledSurvey graph request options s reused).plan request fresh⟩ applied s' ws)
  (inCatalog : request.source = .domain catalog)
include committed inCatalog

/-- Where the policy looks both times, the element of the first description is found. -/
theorem reuses_again
    (hfirst : first ∈
      ((settledSurvey graph request options s reused).plan request fresh).descriptions)
    (hd : d ∈ ((settledSurvey graph request options s' reused').plan request fresh').descriptions)
    (named : first.item = d.item) (looked : options.lookup.appliesTo first.requested = true)
    (looks : options.lookup.appliesTo d.requested = true) :
    d.disposition = .reuse first.disposition.element := by
  obtain ⟨item, found, disposes⟩ := settled_disposes graph s' fresh' request options reused' hd
  have existing := existing?_of_planned committed inCatalog hfirst looked (named ▸ found)
  rw [existingIncarnation?_eq, Option.map_eq_some_iff] at existing
  obtain ⟨e, held, same⟩ := existing
  unfold IncarnationRequest.Disposes at disposes
  rw [if_pos looks, held] at disposes
  rw [disposes, same]

variable (cuts : CutsExactly graph request options s reused)
  (cuts' : CutsExactly graph request options s' reused')
  (resolved' : resolve graph s'.connect fresh' request options =
    .ok ((settledSurvey graph request options s' reused').plan request fresh'))
include exist cuts cuts' resolved'

theorem repeats_again (notAlways : options.lookup ≠ .always)
    (looked : ∀ first ∈
      ((settledSurvey graph request options s reused).plan request fresh).descriptions,
      first.item = d.item → options.lookup.appliesTo first.requested = true)
    (hd : d ∈ ((settledSurvey graph request options s' reused').plan request fresh').descriptions)
    (looks : options.lookup.appliesTo d.requested = true) :
    d.Repeats ((settledSurvey graph request options s reused).plan request fresh) := by
  have planned : d.item ∈
      ((request.walk graph options reused').plannedItems request.items).map (·.1) := by
    rw [← settled_items graph s' fresh' request options reused']
    exact List.mem_map_of_mem hd
  obtain ⟨first, hfirst, named⟩ := described_before committed exist cuts cuts' planned
  have reuses := reuses_again committed inCatalog hfirst hd named (looked first hfirst named) looks
  refine ⟨⟨first, hfirst, named, reuses⟩, references_of_reuse resolved' notAlways hd ?_⟩
  rw [reuses]
  rfl

theorem repeated_sameVersion (policy : options.lookup = .sameVersion) :
    let plan := (settledSurvey graph request options s reused).plan request fresh
    let plan' := (settledSurvey graph request options s' reused').plan request fresh'
    plan'.descriptions.map (·.item) = distinct request.items ∧
      (∀ d ∈ plan'.descriptions, d.Repeats plan) ∧ plan'.issues = [] := by
  intro plan plan'
  have looks (requested : Bool) : options.lookup.appliesTo requested = true := by
    rw [policy]
    rfl
  have repeats : ∀ d ∈ plan'.descriptions, d.Repeats plan := fun d hd =>
    repeats_again exist committed inCatalog cuts cuts' resolved' (by rw [policy]; decide)
      (fun first _ _ => looks first.requested) hd (looks d.requested)
  refine ⟨?_, repeats, ?_⟩
  · rw [settled_items, plannedItems_again committed exist cuts cuts' inCatalog policy,
      List.map_map]
    exact List.map_id _
  · rw [settled_issues fresh' exist cuts']
    refine List.flatMap_eq_nil_iff.mpr fun d hd => ?_
    obtain ⟨first, -, -, reuses⟩ := (repeats d hd).reuses
    have cut : d.isCut options.lookup = true := by
      rw [IncarnationDescription.isCut, policy, reuses]
      rfl
    rw [ResolveOptions.accountable, if_pos cut, List.flatMap_nil]

theorem repeated_forReferencedItems (policy : options.lookup = .forReferencedItems) :
    let plan := (settledSurvey graph request options s reused).plan request fresh
    let plan' := (settledSurvey graph request options s' reused').plan request fresh'
    (∀ id, id ∈ plan'.requestedItems ↔ id ∈ plan.requestedItems) ∧
      (∀ d ∈ plan'.descriptions, d.disposition.isCreate = true ↔ d.requested = true) ∧
      ∀ d ∈ plan'.descriptions, d.requested = false → d.Repeats plan := by
  intro plan plan'
  have looks (requested : Bool) : options.lookup.appliesTo requested = !requested := by
    rw [policy]
    rfl
  have flagged (id : ItemId) : id ∈ plan'.requestedItems ↔ id ∈ plan.requestedItems := by
    rw [settled_requestedItems exist policy cuts', settled_requestedItems exist policy cuts]
  have repeats : ∀ d ∈ plan'.descriptions, d.requested = false → d.Repeats plan := by
    intro d hd unrequested
    refine repeats_again exist committed inCatalog cuts cuts' resolved' (by rw [policy]; decide)
      (fun first hfirst named => ?_) hd (by rw [looks, unrequested]; rfl)
    -- an item that counted as requested would still do so
    rw [looks, Bool.not_eq_true', ← Bool.not_eq_true, requested_iff_mem_requestedItems hfirst,
      named, ← flagged, ← requested_iff_mem_requestedItems hd, Bool.not_eq_true]
    exact unrequested
  refine ⟨flagged, fun d hd => ?_, repeats⟩
  cases requested : d.requested with
  | false =>
    obtain ⟨first, -, -, reuses⟩ := (repeats d hd requested).reuses
    simp [reuses, Disposition.isCreate]
  | true =>
    obtain ⟨item, -, disposes⟩ := settled_disposes graph s' fresh' request options reused' hd
    have skips : ¬ options.lookup.appliesTo d.requested = true := by
      rw [looks, requested]
      decide
    unfold IncarnationRequest.Disposes at disposes
    rw [if_neg skips] at disposes
    obtain ⟨id, creates⟩ := disposes
    simp [creates, Disposition.isCreate]

end

/-- Once a plan for items of a catalog was applied, the same request repeats it as far as the policy
looks: under `sameVersion` the requested items and nothing else, without issues; under
`forReferencedItems` all but what counts as requested, which is created anew. -/
theorem resolve_repeated (graph : TemplateGraph) (domain : Domain) (s s' : Store)
    (request : IncarnationRequest) (options : ResolveOptions) (catalog : DomainId)
    (fresh fresh' : Nat → ElementId) (plan : IncarnationPlan) (applied : AppliedIncarnation)
    (inCatalog : request.source = .domain catalog)
    (resolved : resolve graph s.connect fresh request options = .ok plan)
    (succeeded : Application.run ⟨s.connect, graph, domain, plan⟩ = .ok (applied, s')) :
    (options.lookup = .sameVersion →
      ∃ plan', resolve graph s'.connect fresh' request options = .ok plan' ∧
        plan'.descriptions.map (·.item) = distinct request.items ∧
        (∀ d ∈ plan'.descriptions, d.Repeats plan) ∧ plan'.issues = []) ∧
    (options.lookup = .forReferencedItems →
      ∃ plan', resolve graph s'.connect fresh' request options = .ok plan' ∧
        (∀ id, id ∈ plan'.requestedItems ↔ id ∈ plan.requestedItems) ∧
        (∀ d ∈ plan'.descriptions, d.disposition.isCreate = true ↔ d.requested = true) ∧
        ∀ d ∈ plan'.descriptions, d.requested = false → d.Repeats plan) := by
  obtain ⟨nonempty, exist, reused, cuts, rfl⟩ := resolve_eq_ok resolved
  obtain ⟨reused', cuts', resolved'⟩ := resolve_eq s' fresh' options nonempty exist
  obtain ⟨ws, committed⟩ := Store.committed_of_run rfl succeeded
  refine ⟨fun policy => ⟨_, resolved', ?_⟩, fun policy => ⟨_, resolved', ?_⟩⟩
  · exact repeated_sameVersion exist committed inCatalog cuts cuts' resolved' policy
  · exact repeated_forReferencedItems exist committed inCatalog cuts cuts' resolved' policy

/-- An asset with a copy, a part and a missing part, which the request names twice. -/
theorem resolve_repeated_of_copied_asset :
    let domain : Domain := .ofTemplate ⟨⟨1⟩⟩ { id := ⟨⟨0⟩⟩, name := "template", version := {} }
    let item (n : Nat) (references : List TailoringReference) : TemplateItem :=
      { id := ⟨⟨n⟩⟩, nspace := domain.nspace, name := "item", elementType := .asset, references }
    let asset := item 10 [⟨⟨⟨20⟩⟩, ⟨⟨11⟩⟩, .copy⟩, ⟨⟨⟨21⟩⟩, ⟨⟨12⟩⟩, .part⟩, ⟨⟨⟨22⟩⟩, ⟨⟨90⟩⟩, .part⟩]
    let copy := item 11 [⟨⟨⟨23⟩⟩, ⟨⟨10⟩⟩, .part⟩]
    let part := item 12 []
    let graph : TemplateGraph := ⟨[asset, copy, part], by decide⟩
    let s : Store := { units := .ofList [⟨⟨⟨2⟩⟩, "unit", [domain.id]⟩] }
    let request : IncarnationRequest :=
      { unit := ⟨⟨2⟩⟩, domain := domain.id, items := [asset.id, asset.id] }
    let fresh (n : Nat) : ElementId := ⟨⟨n + 50⟩⟩
    let fresh' (n : Nat) : ElementId := ⟨⟨n + 70⟩⟩
    let applies (options : ResolveOptions) (plan : IncarnationPlan) (s' : Store) : Prop :=
      resolve graph s.connect fresh request options = .ok plan ∧
        ∃ applied, Application.run ⟨s.connect, graph, domain, plan⟩ = .ok (applied, s')
    request.source = .domain domain.id ∧
    (∃ plan s' plan', applies { lookup := .sameVersion } plan s' ∧
      resolve graph s'.connect fresh' request { lookup := .sameVersion } = .ok plan' ∧
      plan'.descriptions.map (·.item) = distinct request.items ∧
      (∀ d ∈ plan'.descriptions, d.Repeats plan) ∧ plan'.issues = []) ∧
    ∃ plan s' plan', applies { lookup := .forReferencedItems } plan s' ∧
      resolve graph s'.connect fresh' request { lookup := .forReferencedItems } = .ok plan' ∧
      (∀ id, id ∈ plan'.requestedItems ↔ id ∈ plan.requestedItems) ∧
      (∀ d ∈ plan'.descriptions, d.disposition.isCreate = true ↔ d.requested = true) ∧
      ∀ d ∈ plan'.descriptions, d.requested = false → d.Repeats plan := by
  intro domain item asset copy part graph s request fresh fresh' applies
  have ran : ∀ p ∈ [LookupPolicy.sameVersion, .forReferencedItems],
      ((resolve graph s.connect fresh request { lookup := p }).toOption.bind fun plan =>
        (Application.run ⟨s.connect, graph, domain, plan⟩).toOption).isSome = true := by
    decide +kernel
  have applied (p : LookupPolicy) (hp : p ∈ [LookupPolicy.sameVersion, .forReferencedItems]) :
      ∃ plan s', applies { lookup := p } plan s' := by
    obtain ⟨⟨applied, s'⟩, done⟩ := Option.isSome_iff_exists.mp (ran p hp)
    obtain ⟨plan, resolved, succeeded⟩ := Option.bind_eq_some_iff.mp done
    exact ⟨plan, s', except_toOption_eq_some.mp resolved, applied,
      except_toOption_eq_some.mp succeeded⟩
  refine ⟨rfl, ?_, ?_⟩
  · obtain ⟨plan, s', resolved, applied, succeeded⟩ := applied .sameVersion (by decide)
    obtain ⟨plan', again⟩ := (resolve_repeated graph domain s s' request _ domain.id fresh fresh'
      plan applied rfl resolved succeeded).1 rfl
    exact ⟨plan, s', plan', ⟨resolved, applied, succeeded⟩, again⟩
  · obtain ⟨plan, s', resolved, applied, succeeded⟩ := applied .forReferencedItems (by decide)
    obtain ⟨plan', again⟩ := (resolve_repeated graph domain s s' request _ domain.id fresh fresh'
      plan applied rfl resolved succeeded).2 rfl
    exact ⟨plan, s', plan', ⟨resolved, applied, succeeded⟩, again⟩

end TemplateCatalog
