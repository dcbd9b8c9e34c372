import TemplateCatalog.Proofs.Incarnation.InPlace
import TemplateCatalog.Proofs.Plan.Resolution

/-!
# Clients that share a store

Clients resolve requests and apply the plans they got, in any order. Between the
look-up of a resolution and the write of an application, and between the reads of
an application and its write, others may write anything. What closes the gap is
that a batch carries a guard for every element that it creates, and that guards
are checked when the batch is committed.

Elements are told apart by a `key` of their tags. The argument is the same for
items with their versions and for items alone; it needs only that a guard of the
look-up policy covers all tags of one key (`LookupPolicy.Covers`).

Results:
1. `resolve_guarded`: a plan for a catalog guards all that it creates.
2. `Application.computeBatch_guarded`: so does the batch of such a plan.
3. `Batch.Guarded.unique_write`: to write a guarded batch keeps tags unique.
4. `SharedStore.run_unique`: no interleaving brings a second incarnation.
-/

namespace TemplateCatalog

/-! ## Tags -/

section

variable {κ : Type} (key : AppliedItem → κ)

/-- Two elements of one unit and one domain are not tagged with the same key. -/
def Element.TaggedApart (e e' : Element) : Prop :=
  e.owner = e'.owner → e.domain = e'.domain →
    ∀ a a', e.appliedItem = some a → e'.appliedItem = some a' → key a ≠ key a'

/-- No two stored elements of a unit and a domain are tagged with the same key. -/
def Store.Unique (s : Store) : Prop := s.elements.rows.Pairwise (Element.TaggedApart key)

/-- Tags are read off the cores of elements. -/
theorem taggedApart_cores {es : List Element} :
    (es.map Element.core).Pairwise (Element.TaggedApart key) ↔
      es.Pairwise (Element.TaggedApart key) :=
  List.pairwise_map

/-- The policy guards all that it creates, and its guards cover all tags of one key. -/
structure LookupPolicy.Covers (p : LookupPolicy) : Prop where
  guards : p = .always ∨ p = .sameVersion
  item : ∀ a a', key a = key a' → a.item = a'.item
  version : p = .sameVersion → ∀ a a', key a = key a' → a.version = a'.version

/-! ## Batches -/

/-- Nothing that a batch creates can become a second incarnation. -/
structure Batch.Guarded (b : Batch) : Prop where
  created_ids : (b.created.map (·.id)).Nodup
  modified_ids : (b.modified.map (·.id)).Nodup
  place : ∀ e ∈ b.created, e.owner = b.unit ∧ e.domain = b.domain
  apart : b.created.Pairwise (Element.TaggedApart key)
  guarded : ∀ e ∈ b.created, ∀ a, e.appliedItem = some a → ∃ g ∈ b.guards,
    ∀ x a', x.appliedItem = some a' → key a = key a' → g.isViolatedBy x = true

end

/-- What a batch modifies is stored and has the same core there. -/
def Batch.Fits (b : Batch) (s : Store) : Prop :=
  ∀ m ∈ b.modified, ∃ e ∈ s.elements.rows, m.core = e.core

namespace Batch

variable {κ : Type} {key : AppliedItem → κ} {s : Store} {b b' : Batch}

theorem cores_write (guarded : b.Guarded key) (fits : b.Fits s) (allowed : s.violation? b = none) :
    (s.write b).elements.rows.map Element.core =
      s.elements.rows.map Element.core ++ b.created.map Element.core := by
  rw [Store.rows_write allowed guarded.created_ids guarded.modified_ids, List.map_append,
    List.map_map]
  congr 1
  refine List.map_congr_left fun e he => ?_
  rw [Function.comp_apply, Table.replacement]
  cases found : b.modified.find? fun m => m.id = e.id with
  | none => rfl
  | some m =>
    obtain ⟨x, hx, same⟩ := fits m (List.mem_of_find?_eq_some found)
    have hid : x.id = e.id := by
      rw [← Element.eq_of_core Element.id (fun _ => rfl) same]
      simpa using List.find?_some found
    cases List.inj_on_of_nodup_map s.elements.distinct_keys hx he hid
    exact same

theorem Fits.write (h : b'.Fits s) (guarded : b.Guarded key) (fits : b.Fits s)
    (allowed : s.violation? b = none) : b'.Fits (s.write b) := by
  intro m hm
  obtain ⟨e, he, same⟩ := h m hm
  have kept : e.core ∈ (s.write b).elements.rows.map Element.core := by
    rw [cores_write guarded fits allowed]
    exact List.mem_append_left _ (List.mem_map_of_mem he)
  obtain ⟨e', he', core⟩ := List.mem_map.mp kept
  exact ⟨e', he', same.trans core.symm⟩

/-- The guards hold when the batch is written, so what it creates is the first of its tag. -/
theorem Guarded.unique_write (guarded : b.Guarded key) (fits : b.Fits s)
    (allowed : s.violation? b = none) (h : s.Unique key) : (s.write b).Unique key := by
  obtain ⟨-, -, unguarded⟩ := Store.violation?_eq_none allowed
  unfold Store.Unique at h ⊢
  rw [← taggedApart_cores, cores_write guarded fits allowed, ← List.map_append, taggedApart_cores]
  refine List.pairwise_append.mpr ⟨h, guarded.apart, fun e he e' he' sameUnit sameDomain => ?_⟩
  intro a a' tag tag' same
  obtain ⟨g, hg, violated⟩ := guarded.guarded e' he' a' tag'
  obtain ⟨ofUnit, ofDomain⟩ := guarded.place e' he'
  have held : e ∈ s.elementsOf b.unit b.domain := by
    simp [Store.elementsOf, he, sameUnit, sameDomain, ofUnit, ofDomain]
  exact absurd (violated e a tag same.symm) (by rw [unguarded g hg e held]; exact Bool.false_ne_true)

end Batch

/-! ## Plans -/

/-- All items live in the catalog of some domain. -/
def TemplateGraph.IsCatalog (g : TemplateGraph) : Prop :=
  ∀ item ∈ g.items, ∃ domain, item.nspace = .domain domain

theorem TemplateGraph.IsCatalog.applied?_eq {g : TemplateGraph} (h : g.IsCatalog) {id : ItemId}
    {item : TemplateItem} (found : g.get? id = some item) : item.applied? = some id := by
  obtain ⟨member, rfl⟩ := get?_eq_some_iff.mp found
  obtain ⟨domain, inCatalog⟩ := h item member
  rw [TemplateItem.applied?, inCatalog]

/-- The plan describes no item twice and guards all that it creates. -/
structure IncarnationPlan.Guarded {κ : Type} (key : AppliedItem → κ) (plan : IncarnationPlan) :
    Prop where
  covers : plan.lookup.Covers key
  items : (plan.descriptions.map (·.item)).Nodup
  guards : ∀ d ∈ plan.descriptions, ∀ id isGuarded,
    d.disposition = .create id isGuarded → isGuarded = true

section

variable {κ : Type} {key : AppliedItem → κ} {s : Store}

theorem resolve_guarded {graph : TemplateGraph} {fresh : Nat → ElementId}
    {request : IncarnationRequest} {options : ResolveOptions} {plan : IncarnationPlan}
    (catalog : graph.IsCatalog) (covers : options.lookup.Covers key)
    (h : resolve graph s.connect fresh request options = .ok plan) : plan.Guarded key := by
  obtain ⟨-, -, reused, -, rfl⟩ := resolve_eq_ok h
  refine ⟨covers, settled_nodup graph s fresh request options reused,
    fun d hd id isGuarded create => ?_⟩
  obtain ⟨item, found, disposes⟩ := settled_disposes graph s fresh request options reused hd
  have applies : options.lookup.appliesTo d.requested = true := by
    rcases covers.guards with always | sameVersion
    · rw [always]
      rfl
    · rw [sameVersion]
      rfl
  have tagged := catalog.applied?_eq (TemplateGraph.getIn?_eq_some_iff.mp found).1
  rw [(disposes.of_create create applies).1, tagged]
  rfl

namespace Application

variable {a : Application} {d : IncarnationDescription} {e : Element}

/-- In a catalog a new element is tagged with the item that its description names. -/
theorem Creates.tag_of_catalog (h : a.Creates d e) (catalog : a.graph.IsCatalog) :
    ∃ item, a.graph.get? d.item = some item ∧ item.applied? = some d.item ∧
      e.appliedItem = some ⟨d.item, item.version⟩ := by
  have ⟨item, _, _, found, _⟩ := h
  have applies := catalog.applied?_eq found
  refine ⟨item, found, applies, ?_⟩
  rw [h.tag found, applies]
  rfl

theorem taggedApart_of_creates {ds : List IncarnationDescription} {es : List Element}
    (h : List.Forall₂ a.Creates ds es) (catalog : a.graph.IsCatalog)
    (covers : ∀ t t', key t = key t' → t.item = t'.item) (items : (ds.map (·.item)).Nodup) :
    es.Pairwise (Element.TaggedApart key) := by
  induction h with
  | nil => exact .nil
  | cons created rest ih =>
    obtain ⟨other, items⟩ := List.nodup_cons.mp items
    refine List.pairwise_cons.mpr ⟨fun e' he' _ _ t t' tag tag' same => ?_, ih items⟩
    obtain ⟨d', hd', created'⟩ := forall₂_mem_right rest he'
    obtain ⟨item, -, -, tagged⟩ := created.tag_of_catalog catalog
    obtain ⟨item', -, -, tagged'⟩ := created'.tag_of_catalog catalog
    cases tag.symm.trans tagged
    cases tag'.symm.trans tagged'
    exact other (List.mem_map.mpr ⟨d', hd', (covers _ _ same).symm⟩)

/-- A description that creates a guarded element brings a guard for the tag of the element. -/
theorem Creates.guarded (h : a.Creates d e) (catalog : a.graph.IsCatalog)
    (covers : a.plan.lookup.Covers key)
    (guards : ∀ id isGuarded, d.disposition = .create id isGuarded → isGuarded = true)
    {t : AppliedItem} (tag : e.appliedItem = some t) :
    ∃ g, a.guardOf? d = some g ∧
      ∀ x t', x.appliedItem = some t' → key t = key t' → g.isViolatedBy x = true := by
  obtain ⟨item, found, applies, tagged⟩ := h.tag_of_catalog catalog
  cases tag.symm.trans tagged
  have ⟨_, isGuarded, create, _⟩ := h
  cases guards _ _ create
  have guard : a.guardOf? d =
      some ⟨d.item, if a.plan.lookup = .sameVersion then some item.version else none⟩ := by
    simp [guardOf?, create, found, IncarnationPlan.guardFor?, applies]
  refine ⟨_, guard, fun x t' tag' same => ?_⟩
  have sameItem := covers.item _ _ same
  unfold IncarnationGuard.isViolatedBy
  rw [tag']
  by_cases policy : a.plan.lookup = .sameVersion
  · have sameVersion := covers.version policy _ _ same
    simp [policy, ← sameItem, ← sameVersion]
  · simp [policy, ← sameItem]

theorem computeBatch_guarded {b : Batch} (catalog : a.graph.IsCatalog)
    (plain : a.connection = s.connect) (guarded : a.plan.Guarded key)
    (h : a.computeBatch = .ok b) : b.Guarded key ∧ b.Fits s := by
  obtain ⟨ws, derives⟩ := computeBatch_derives h
  have tracked := derives.reached.tracked
  refine ⟨⟨?_, ?_, fun e he => ?_, ?_, fun e he t tag => ?_⟩, fun m hm => ?_⟩
  · rw [derives.created]
    exact tracked.created_ids
  · rw [derives.modified]
    exact tracked.modified_ids
  · obtain ⟨d, -, -, created⟩ := origin_of_creates derives.creates he
    rw [derives.unit, derives.domain]
    exact created.place
  · refine taggedApart_of_creates derives.creates catalog guarded.covers.item ?_
    have ordered := perm_of_creationOrder a.plan.descriptions
    exact ((ordered.map (·.item)).nodup_iff.mpr guarded.items).sublist (List.filter_sublist.map _)
  · obtain ⟨d, hd, -, created⟩ := origin_of_creates derives.creates he
    obtain ⟨g, guard, covered⟩ := created.guarded catalog guarded.covers (guarded.guards d hd) tag
    rw [derives.guards]
    exact ⟨g, List.mem_filterMap.mpr ⟨d, IncarnationPlan.mem_inCreationOrder.mpr hd, guard⟩, covered⟩
  · rw [derives.modified] at hm
    obtain ⟨x, hx, -, grown⟩ := derives.reached.modified_origin plain hm
    exact ⟨x, hx, grown.core_eq⟩

end Application

end

/-! ## The shared store -/

abbrev ClientId := Nat

/-- A store with what every client has in hand: plans that it resolved, and batches that it read
and has not written. -/
structure SharedStore where
  store : Store
  plans : ClientId → List IncarnationPlan := fun _ => []
  batches : ClientId → List Batch := fun _ => []

namespace SharedStore

/-- A step of a client. Plans and batches are named by their positions in the client's hand, so a
plan may be applied late, and more than once. -/
inductive Action where
  | resolve (client : ClientId) (graph : TemplateGraph) (fresh : Nat → ElementId)
      (request : IncarnationRequest) (options : ResolveOptions)
  | apply (client : ClientId) (plan : Nat) (graph : TemplateGraph) (domain : Domain)
  /-- The reads of an application, without the write. -/
  | read (client : ClientId) (plan : Nat) (graph : TemplateGraph) (domain : Domain)
  /-- The write of an application that was read. -/
  | write (client : ClientId) (batch : Nat)

/-- The graph that a step uses, and the look-up policy that it asks for. -/
def Action.graph? : Action → Option TemplateGraph
  | .resolve _ graph _ _ _ | .apply _ _ graph _ | .read _ _ graph _ => some graph
  | .write .. => none

def Action.lookup? : Action → Option LookupPolicy
  | .resolve _ _ _ _ options => some options.lookup
  | .apply .. | .read .. | .write .. => none

variable (w : SharedStore)

def holdPlan (client : ClientId) (plan : IncarnationPlan) : SharedStore :=
  { w with plans := Function.update w.plans client (w.plans client ++ [plan]) }

def holdBatch (client : ClientId) (batch : Batch) : SharedStore :=
  { w with batches := Function.update w.batches client (w.batches client ++ [batch]) }

/-- What fails leaves everything as it is. -/
def step : Action → SharedStore
  | .resolve client graph fresh request options =>
    match TemplateCatalog.resolve graph w.store.connect fresh request options with
    | .error _ => w
    | .ok plan => w.holdPlan client plan
  | .apply client plan graph domain =>
    match (w.plans client)[plan]? with
    | none => w
    | some plan => { w with store := (w.store.applyInPlace graph domain plan).2 }
  | .read client plan graph domain =>
    match (w.plans client)[plan]? with
    | none => w
    | some plan =>
      match Application.computeBatch ⟨w.store.connect, graph, domain, plan⟩ with
      | .error _ => w
      | .ok batch => w.holdBatch client batch
  | .write client batch =>
    match (w.batches client)[batch]? with
    | none => w
    | some batch => { w with store := (w.store.commitInPlace batch).2 }

def run (as : List Action) : SharedStore := as.foldl step w

end SharedStore

/-- Tags are unique, and all that is in hand is guarded. -/
structure SharedStore.Safe {κ : Type} (key : AppliedItem → κ) (w : SharedStore) : Prop where
  unique : w.store.Unique key
  plans : ∀ client, ∀ plan ∈ w.plans client, plan.Guarded key
  batches : ∀ client, ∀ batch ∈ w.batches client, batch.Guarded key ∧ batch.Fits w.store

namespace SharedStore

variable {κ : Type} {key : AppliedItem → κ} {w : SharedStore}

theorem Safe.commit (h : w.Safe key) {b : Batch} (guarded : b.Guarded key) (fits : b.Fits w.store) :
    Safe key { w with store := (w.store.commitInPlace b).2 } := by
  rw [Store.commitInPlace_eq, Store.commit]
  cases allowed : w.store.violation? b with
  | some e => exact h
  | none =>
    refine ⟨guarded.unique_write fits allowed h.unique, h.plans, fun client batch hb => ?_⟩
    obtain ⟨guarded', fits'⟩ := h.batches client batch hb
    exact ⟨guarded', fits'.write guarded fits allowed⟩

/-- What is in some client's hand was there before, or it is what one client took. -/
theorem mem_hands {α : Type} {hands : ClientId → List α} {client other : ClientId} {held new : α}
    (h : held ∈ Function.update hands client (hands client ++ [new]) other) :
    held ∈ hands other ∨ held = new := by
  by_cases same : other = client
  · subst same
    rwa [Function.update_self, List.mem_append, List.mem_singleton] at h
  · rw [Function.update_of_ne same] at h
    exact .inl h

theorem Safe.holdPlan (h : w.Safe key) (client : ClientId) {plan : IncarnationPlan}
    (guarded : plan.Guarded key) : (w.holdPlan client plan).Safe key := by
  refine ⟨h.unique, fun other held hheld => ?_, h.batches⟩
  rcases mem_hands hheld with old | rfl
  · exact h.plans other held old
  · exact guarded

theorem Safe.holdBatch (h : w.Safe key) (client : ClientId) {batch : Batch}
    (guarded : batch.Guarded key) (fits : batch.Fits w.store) :
    (w.holdBatch client batch).Safe key := by
  refine ⟨h.unique, h.plans, fun other held hheld => ?_⟩
  rcases mem_hands hheld with old | rfl
  · exact h.batches other held old
  · exact ⟨guarded, fits⟩

theorem Safe.step (h : w.Safe key) {a : Action} (catalog : ∀ g, a.graph? = some g → g.IsCatalog)
    (covers : ∀ p, a.lookup? = some p → p.Covers key) : (w.step a).Safe key := by
  cases a with
  | resolve client graph fresh request options =>
    simp only [SharedStore.step]
    split
    · exact h
    · next plan resolved =>
      exact h.holdPlan client (resolve_guarded (catalog graph rfl) (covers _ rfl) resolved)
  | apply client position graph domain =>
    simp only [SharedStore.step]
    split
    · exact h
    · next plan held =>
      rw [Store.applyInPlace_store]
      split
      · exact h
      · next batch computed =>
        obtain ⟨guarded, fits⟩ := Application.computeBatch_guarded (catalog graph rfl) rfl
          (h.plans client plan (List.mem_of_getElem? held)) computed
        exact h.commit guarded fits
  | read client position graph domain =>
    simp only [SharedStore.step]
    split
    · exact h
    · next plan held =>
      split
      · exact h
      · next batch computed =>
        obtain ⟨guarded, fits⟩ := Application.computeBatch_guarded (catalog graph rfl) rfl
          (h.plans client plan (List.mem_of_getElem? held)) computed
        exact h.holdBatch client guarded fits
  | write client position =>
    simp only [SharedStore.step]
    split
    · exact h
    · next batch held =>
      obtain ⟨guarded, fits⟩ := h.batches client batch (List.mem_of_getElem? held)
      exact h.commit guarded fits

theorem Safe.run (h : w.Safe key) {as : List Action}
    (catalogs : ∀ a ∈ as, ∀ g, a.graph? = some g → g.IsCatalog)
    (covers : ∀ a ∈ as, ∀ p, a.lookup? = some p → p.Covers key) : (w.run as).Safe key := by
  induction as generalizing w with
  | nil => exact h
  | cons a rest ih =>
    obtain ⟨catalog, catalogs⟩ := List.forall_mem_cons.mp catalogs
    obtain ⟨cover, covers⟩ := List.forall_mem_cons.mp covers
    exact ih (h.step catalog cover) catalogs covers

/-- Clients that work with catalogs and always look up incarnations, of any or of the same version,
never bring a second incarnation of an item and a version. If they look up incarnations of any
version, they never bring a second incarnation of an item. -/
theorem run_unique (s : Store) (as : List Action)
    (catalogs : ∀ a ∈ as, ∀ g, a.graph? = some g → g.IsCatalog)
    (lookups : ∀ a ∈ as, ∀ p, a.lookup? = some p → p = .always ∨ p = .sameVersion) :
    (s.Unique id → (run { store := s } as).store.Unique id) ∧
      ((∀ a ∈ as, ∀ p, a.lookup? = some p → p = .always) → s.Unique (·.item) →
        (run { store := s } as).store.Unique (·.item)) := by
  constructor
  · intro unique
    have start : Safe id { store := s } := ⟨unique, fun _ _ => nofun, fun _ _ => nofun⟩
    refine (start.run catalogs fun a ha p asks => ?_).unique
    exact ⟨lookups a ha p asks, fun _ _ same => congrArg AppliedItem.item same,
      fun _ _ _ same => congrArg AppliedItem.version same⟩
  · intro always unique
    have start : Safe (·.item) { store := s } := ⟨unique, fun _ _ => nofun, fun _ _ => nofun⟩
    refine (start.run catalogs fun a ha p asks => ?_).unique
    cases always a ha p asks
    exact ⟨.inl rfl, fun _ _ same => same, nofun⟩

/-- Two clients resolve a request for the same item. The first one reads its batch, then the second
one applies its plan, so what the first one writes is refused. -/
theorem run_unique_of_two_clients :
    let domain : Domain := .ofTemplate ⟨⟨1⟩⟩ { id := ⟨⟨0⟩⟩, name := "template", version := {} }
    let item : TemplateItem :=
      { id := ⟨⟨10⟩⟩, nspace := domain.nspace, name := "item", elementType := .asset }
    let graph : TemplateGraph := ⟨[item], List.nodup_singleton _⟩
    let s : Store := { units := .ofList [⟨⟨⟨2⟩⟩, "unit", [domain.id]⟩] }
    let request : IncarnationRequest := { unit := ⟨⟨2⟩⟩, domain := domain.id, items := [item.id] }
    let as : List Action := [
      .resolve 0 graph (fun n => ⟨⟨n + 50⟩⟩) request { lookup := .always },
      .resolve 1 graph (fun n => ⟨⟨n + 60⟩⟩) request { lookup := .always },
      .read 0 0 graph domain,
      .apply 1 0 graph domain,
      .write 0 0]
    (run { store := s } as).store.elements.rows.map (·.id) = [⟨⟨60⟩⟩] ∧
      (run { store := s } as).store.Unique id ∧ (run { store := s } as).store.Unique (·.item) := by
  intro domain item graph s request as
  have catalog : graph.IsCatalog := fun _ hitem =>
    ⟨domain.id, by rw [List.mem_singleton.mp hitem]; rfl⟩
  have catalogs : ∀ a ∈ as, ∀ g, a.graph? = some g → g.IsCatalog := by
    simp [as, Action.graph?, catalog]
  have always : ∀ a ∈ as, ∀ p, a.lookup? = some p → p = .always := by
    simp [as, Action.lookup?]
  obtain ⟨versions, items⟩ :=
    run_unique s as catalogs fun a ha p asks => .inl (always a ha p asks)
  exact ⟨by decide +kernel, versions .nil, items always .nil⟩

end SharedStore

end TemplateCatalog
