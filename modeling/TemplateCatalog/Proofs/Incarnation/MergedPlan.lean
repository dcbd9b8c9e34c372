import TemplateCatalog.Proofs.Incarnation.Realization
import TemplateCatalog.Proofs.Plan.Merging

/-!
# Applying a merged plan

A plan is applied merged or unmerged, to one and the same store. Both
applications leave the same elements, and merging brings no part, member or link
that would not be there without it.

Merging keeps the reference that states a relation first, but references of
reused elements are not realized. So a relation is lost if it is stated for a
new element, but before that for a reused one. That takes references of reused
elements, which only `always` follows.

Results:
1. `Store.Committed.bonded_iff`: the bonds of an element are those it had in the
   store, and those that a creating description states.
2. `Wiring.amendment?_merged`, `Wiring.amendment?_of_relation`: a reference means
   the same in both plans, and so do two references of one relation.
3. `Store.merged_bonds`: what merging may lose, and that it loses nothing else.
4. `Store.merging_loses_part`: a part that is lost.
-/

namespace TemplateCatalog

/-! ## Bonds -/

/-- Another element is a part of the element, a member of it, or the target of one of its links. -/
def Element.Bonded (e : Element) : RelationKind → ElementId → Prop
  | .part, p => p ∈ e.parts
  | .member, m => m ∈ e.members
  | .link linkType, target => e.hasLink linkType target = true

/-- The bond that an amendment brings. -/
def Amendment.bond? : Amendment → Option (RelationKind × ElementId)
  | .part p => some (.part, p)
  | .member m => some (.member, m)
  | .link l => some (.link l.linkType, l.target)
  | .risk .. | .control _ | .requirement _ => none

namespace Element

variable {e e' : Element} {m : Amendment} {kind : RelationKind} {held : ElementId}

theorem hasLink_iff {linkType : String} :
    e.hasLink linkType held = true ↔ ∃ l ∈ e.links, l.linkType = linkType ∧ l.target = held := by
  unfold hasLink
  simp only [List.any_eq_true, Bool.and_eq_true, beq_iff_eq]

theorem Grows.bonded (h : e.Grows e') (bonded : e.Bonded kind held) : e'.Bonded kind held := by
  cases kind with
  | part => exact h.parts.subset bonded
  | member => exact h.members.subset bonded
  | link linkType =>
    obtain ⟨l, hl, same⟩ := hasLink_iff.mp bonded
    exact hasLink_iff.mpr ⟨l, h.links.subset hl, same⟩

theorem Shows.bonded (h : e.Shows m) (bond : m.bond? = some (kind, held)) :
    e.Bonded kind held := by
  cases m with
  | part | member =>
    cases bond
    exact h
  | link l =>
    cases bond
    exact hasLink_iff.mpr h
  | risk | control | requirement => cases bond

theorem Holds.bonded (h : e.Holds m) (bond : m.bond? = some (kind, held)) :
    e.Bonded kind held := by
  cases m with
  | part | member =>
    cases bond
    exact h
  | link l =>
    cases bond
    exact hasLink_iff.mpr ⟨l, h, rfl, rfl⟩
  | risk | control | requirement => cases bond

theorem Explained.of_bonded {said : Amendment → Prop} (h : e.Explained said)
    (bonded : e.Bonded kind held) : ∃ m, said m ∧ m.bond? = some (kind, held) := by
  cases kind with
  | part => exact ⟨.part held, h.parts held bonded, rfl⟩
  | member => exact ⟨.member held, h.members held bonded, rfl⟩
  | link linkType =>
    obtain ⟨l, hl, rfl, rfl⟩ := hasLink_iff.mp bonded
    exact ⟨.link l, h.links l hl, rfl⟩

end Element

namespace Store

open Workspace

variable {s s' : Store} {a : Application} {applied : AppliedIncarnation} {ws : Workspace}
  {e : Element} {kind : RelationKind} {held : ElementId}

/-- Bonds are stored before, or they are stated for a new element. -/
theorem Committed.bonded_iff (c : Committed s a applied s' ws) (he : e ∈ s'.elements.rows) :
    e.Bonded kind held ↔
      (∃ x ∈ s.elements.rows, x.id = e.id ∧ x.Bonded kind held) ∨
        ∃ m, a.States e.id m ∧ m.bond? = some (kind, held) := by
  have unique {x : Element} (hx : x ∈ s'.elements.rows) (same : x.id = e.id) : x = e :=
    List.inj_on_of_nodup_map s'.elements.distinct_keys hx he same
  constructor
  · intro bonded
    obtain ⟨m, ⟨x, stored, holds⟩ | stated, bond⟩ := (c.explained he).of_bonded bonded
    · obtain ⟨hx, same⟩ := element?_eq_some_iff.mp stored
      exact .inl ⟨x, hx, same, holds.bonded bond⟩
    · exact .inr ⟨m, stated, bond⟩
  · rintro (⟨x, hx, same, bonded⟩ | ⟨m, stated, bond⟩)
    · obtain ⟨x', hx', grown⟩ := c.grows hx
      rw [← unique hx' (grown.id_eq.trans same)]
      exact grown.bonded bonded
    · obtain ⟨x, found, shown⟩ := c.shows stated
      obtain ⟨hx, same⟩ := element?_eq_some_iff.mp found
      rw [← unique hx same]
      exact shown.bonded bond

/-- The elements of the store that is left are the stored ones and those of creating
descriptions. -/
theorem Committed.mem_ids_iff (c : Committed s a applied s' ws) {id : ElementId} :
    id ∈ s'.elements.rows.map (·.id) ↔
      id ∈ s.elements.rows.map (·.id) ∨ id ∈ allocated a.plan.descriptions := by
  rw [c.frame.ids, c.created, Application.ids_of_creates c.creates, List.mem_append]
  simp only [allocated, List.mem_map, List.mem_filter, IncarnationPlan.mem_inCreationOrder]

end Store

/-! ## References of merged plans -/

theorem dispositions_of_thins {ds ds' : List IncarnationDescription}
    (h : List.Forall₂ IncarnationDescription.Thins ds ds') :
    ds'.map (·.disposition) = ds.map (·.disposition) := by
  induction h with
  | nil => rfl
  | cons thins _ ih => rw [List.map_cons, List.map_cons, thins.disposition, ih]

/-- The element that stands for the item at a position. -/
def IncarnationPlan.elementAt? (plan : IncarnationPlan) (n : Nat) : Option ElementId :=
  (plan.descriptions[n]?).map (·.disposition.element)

namespace IncarnationPlan

variable {plan : IncarnationPlan} {d d' : IncarnationDescription}

theorem merged_descriptions (plan : IncarnationPlan) :
    List.Forall₂ IncarnationDescription.Thins plan.descriptions plan.merged.descriptions :=
  mergeFrom_thins 0 [] plan.descriptions

theorem elementAt?_merged (plan : IncarnationPlan) (n : Nat) :
    plan.merged.elementAt? n = plan.elementAt? n := by
  have same := dispositions_of_thins plan.merged_descriptions
  have at_n := congrArg (fun l => (l[n]?).map Disposition.element) same
  simpa only [elementAt?, List.getElem?_map, Option.map_map, Function.comp_def] using at_n

theorem targetElement_planned (n : Nat) : plan.targetElement d (.planned n) =
    match plan.elementAt? n with
    | some element => .ok element
    | none => .error (.invalidPlan (.noPosition n)) := by
  unfold elementAt?
  cases h : plan.descriptions[n]? with
  | none => simp only [targetElement, h, Option.map_none]
  | some target => simp only [targetElement, h, Option.map_some]

theorem targetElement_planned_eq_ok {n : Nat} {id : ElementId} :
    plan.targetElement d (.planned n) = .ok id ↔ plan.elementAt? n = some id := by
  rw [targetElement_planned]
  cases plan.elementAt? n with
  | none => exact ⟨nofun, nofun⟩
  | some element => rw [Except.ok.injEq, Option.some.injEq]

theorem targetElement_merged (same : d'.item = d.item) (t : ReferenceTarget) :
    plan.merged.targetElement d' t = plan.targetElement d t := by
  cases t with
  | planned n => rw [targetElement_planned, targetElement_planned, elementAt?_merged]
  | existing id => rfl
  | unresolved item =>
    unfold targetElement
    rw [same]

end IncarnationPlan

namespace Wiring

variable {domain : Domain} {plan : IncarnationPlan} {d d' : IncarnationDescription}
  {r : ResolvedReference} {relation : Relation} {holder : ElementId} {m : Amendment}

/-- A reference that is kept means what it meant. -/
theorem amendment?_merged (thins : d.Thins d') (r : ResolvedReference) :
    amendment? ⟨domain, plan.merged, d'⟩ r = amendment? ⟨domain, plan, d⟩ r := by
  have auxiliary (role : AuxiliaryRole) :
      auxiliary ⟨domain, plan.merged, d'⟩ r role = auxiliary ⟨domain, plan, d⟩ r role := by
    unfold Wiring.auxiliary IncarnationPlan.auxiliaryElement
    simp only [IncarnationPlan.targetElement_merged thins.item]
  unfold amendment? origin
  simp only [auxiliary, IncarnationPlan.targetElement_merged thins.item, thins.disposition]

/-- The amendment of a reference is determined by the relation that it states. -/
theorem amendment?_of_relation {i : Nat} (hd : plan.descriptions[i]? = some d)
    (related : r.relation? i = some relation)
    (stated : amendment? ⟨domain, plan, d⟩ r = some (holder, m)) :
    plan.elementAt? relation.holder = some holder ∧
      ∃ held, plan.elementAt? relation.held = some held ∧ m.bond? = some (relation.kind, held) := by
  have origin : plan.elementAt? i = some d.disposition.element := by
    rw [IncarnationPlan.elementAt?, hd, Option.map_some]
  obtain ⟨n, position, related⟩ := Option.bind_eq_some_iff.mp related
  obtain ⟨target, found, stated⟩ := Option.bind_eq_some_iff.mp stated
  have at_n : plan.elementAt? n = some target := by
    rw [ReferenceTarget.eq_planned_of_position? position, except_toOption_eq_some] at found
    exact IncarnationPlan.targetElement_planned_eq_ok.mp found
  cases hk : r.kind with
  | part | member | link =>
    simp only [hk] at related stated
    cases related
    cases stated
    exact ⟨origin, target, at_n, rfl⟩
  | composite | scope | linkExternal =>
    simp only [hk] at related stated
    cases related
    cases stated
    exact ⟨at_n, d.disposition.element, origin, rfl⟩
  | copy | copyAlways | risk | controlImplementation | requirementImplementation =>
    simp only [hk] at related
    cases related

end Wiring

/-! ## What is lost -/

/-- The bond is stated for a new element, but a reused element comes first in stating it. -/
def IncarnationPlan.Eclipses (plan : IncarnationPlan) (holder : ElementId) (kind : RelationKind)
    (held : ElementId) : Prop :=
  ∃ relation : Relation, relation.kind = kind ∧ plan.elementAt? relation.holder = some holder ∧
    plan.elementAt? relation.held = some held ∧
    (true, relation) ∈ statements 0 plan.descriptions ∧
    (statements 0 plan.descriptions).find? (fun p => p.2 = relation) = some (false, relation)

/-- Only under `always` anything is stated for reused elements. -/
theorem IncarnationPlan.Eclipses.always {graph : TemplateGraph} {s : Store}
    {fresh : Nat → ElementId} {request : IncarnationRequest} {options : ResolveOptions}
    {plan : IncarnationPlan} {holder held : ElementId} {kind : RelationKind}
    (h : plan.Eclipses holder kind held)
    (resolved : resolve graph s.connect fresh request options = .ok plan) :
    options.lookup = .always := by
  obtain ⟨relation, -, -, -, -, first⟩ := h
  obtain ⟨i, d, hd, reuses, r, hr, -⟩ := mem_statements.mp (List.mem_of_find?_eq_some first)
  by_contra notAlways
  rw [references_of_reuse resolved notAlways (List.mem_of_getElem? hd) reuses] at hr
  cases hr

namespace Application

variable {c : Connection} {graph : TemplateGraph} {domain : Domain} {plan : IncarnationPlan}
  {id held : ElementId} {m : Amendment} {kind : RelationKind}

theorem States.of_merged (h : States ⟨c, graph, domain, plan.merged⟩ id m) :
    States ⟨c, graph, domain, plan⟩ id m := by
  obtain ⟨d', hd', creates, r, hr, stated⟩ := h
  obtain ⟨d, hd, thins⟩ := forall₂_mem_right plan.merged_descriptions hd'
  rw [thins.disposition] at creates
  rw [Wiring.amendment?_merged thins] at stated
  exact ⟨d, hd, creates, r, thins.references.subset hr, stated⟩

/-- A relation that is stated for a new element gives a bond of the element at its holder. -/
theorem States.of_statement {relation : Relation}
    (settled : ∀ d ∈ plan.descriptions, d.disposition.isCreate = true →
      ∀ r ∈ d.references, Wiring.Settles ⟨domain, plan, d⟩ r)
    (listed : (true, relation) ∈ statements 0 plan.descriptions) :
    ∃ holder held m, plan.elementAt? relation.holder = some holder ∧
      plan.elementAt? relation.held = some held ∧ States ⟨c, graph, domain, plan⟩ holder m ∧
      m.bond? = some (relation.kind, held) := by
  obtain ⟨i, d, hi, creates, r, hr, related⟩ := mem_statements.mp listed
  rw [Nat.zero_add] at related
  have hd := List.mem_of_getElem? hi
  obtain ⟨-, copy | ⟨⟨holder, m⟩, stated⟩⟩ := settled d hd creates r hr
  · cases (ResolvedReference.relation?_of_isCopy i copy).symm.trans related
  · obtain ⟨atHolder, held, atHeld, bond⟩ := Wiring.amendment?_of_relation hi related stated
    exact ⟨holder, held, m, atHolder, atHeld, ⟨d, hd, creates, r, hr, stated⟩, bond⟩

/-- A bond that is stated is stated after merging, or a reused element came first. -/
theorem States.merged_or_eclipsed (h : States ⟨c, graph, domain, plan⟩ id m)
    (bond : m.bond? = some (kind, held))
    (settled : ∀ d ∈ plan.merged.descriptions, d.disposition.isCreate = true →
      ∀ r ∈ d.references, Wiring.Settles ⟨domain, plan.merged, d⟩ r) :
    (∃ m', States ⟨c, graph, domain, plan.merged⟩ id m' ∧ m'.bond? = some (kind, held)) ∨
      plan.Eclipses id kind held := by
  obtain ⟨d, hd, creates, r, hr, stated⟩ := h
  obtain ⟨i, hi⟩ := List.getElem?_of_mem hd
  cases related : r.relation? i with
  | none =>
    obtain ⟨d', hi', thins, hr'⟩ : ∃ d', plan.merged.descriptions[i]? = some d' ∧ d.Thins d' ∧
        r ∈ d'.references := mergeFrom_keeps hi hr (by rw [Nat.zero_add, related])
    rw [← thins.disposition] at creates
    rw [← Wiring.amendment?_merged thins] at stated
    exact .inl ⟨m, ⟨d', List.mem_of_getElem? hi', creates, r, hr', stated⟩, bond⟩
  | some relation =>
    obtain ⟨atHolder, _, atHeld, bond'⟩ := Wiring.amendment?_of_relation hi related stated
    cases bond.symm.trans bond'
    have listed : (true, relation) ∈ statements 0 plan.descriptions :=
      mem_statements.mpr ⟨i, d, hi, creates, r, hr, by rw [Nat.zero_add, related]⟩
    obtain ⟨firstCreates, first⟩ := first_statement listed
    cases firstCreates with
    | false => exact .inr ⟨relation, rfl, atHolder, atHeld, listed, first⟩
    | true =>
      -- the reference that is kept may be another one, of either end, but it means the same
      obtain ⟨holder', held', m', atHolder', atHeld', stated', bond''⟩ :=
        States.of_statement settled (mergeFrom_covers List.not_mem_nil first)
      rw [IncarnationPlan.elementAt?_merged] at atHolder' atHeld'
      cases atHolder.symm.trans atHolder'
      cases atHeld.symm.trans atHeld'
      exact .inl ⟨m', stated', bond''⟩

end Application

/-- The first element has the bonds of the second, apart from some that may be lost. -/
structure Element.KeepsBonds (lost : RelationKind → ElementId → Prop) (e e' : Element) : Prop where
  sound : ∀ kind held, e.Bonded kind held → e'.Bonded kind held
  complete : ∀ kind held, e'.Bonded kind held → ¬ lost kind held → e.Bonded kind held

namespace Store

/-- Merging adds no bond, and it loses none but those that a reused element is first to state. -/
theorem merged_bonds (graph : TemplateGraph) (domain : Domain) (s sP sQ : Store)
    (fresh : Nat → ElementId) (request : IncarnationRequest) (options : ResolveOptions)
    (P Q : IncarnationPlan) (appliedP appliedQ : AppliedIncarnation)
    (resolvedP : resolve graph s.connect fresh request
      { options with mergeBidirectional := true } = .ok P)
    (resolvedQ : resolve graph s.connect fresh request
      { options with mergeBidirectional := false } = .ok Q)
    (succeededP : s.applyInPlace graph domain P = (.ok appliedP, sP))
    (succeededQ : s.applyInPlace graph domain Q = (.ok appliedQ, sQ)) (id : ElementId) :
    Option.Rel
      (Element.KeepsBonds fun kind held => options.lookup = .always ∧ Q.Eclipses id kind held)
      (sP.element? id) (sQ.element? id) := by
  have merged : P = Q.merged := by
    rw [resolve_merging, resolvedQ] at resolvedP
    exact (Except.ok.inj resolvedP).symm
  subst merged
  obtain ⟨wsP, cP⟩ := applyInPlace_ok succeededP
  obtain ⟨wsQ, cQ⟩ := applyInPlace_ok succeededQ
  have sameIds : id ∈ sP.elements.rows.map (·.id) ↔ id ∈ sQ.elements.rows.map (·.id) := by
    rw [cP.mem_ids_iff, cQ.mem_ids_iff, allocated_of_thins Q.merged_descriptions]
  cases foundP : sP.element? id with
  | none =>
    cases foundQ : sQ.element? id with
    | none => exact .none
    | some e' =>
      obtain ⟨he', rfl⟩ := element?_eq_some_iff.mp foundQ
      exact absurd (sameIds.mpr (List.mem_map_of_mem he')) (Table.get?_eq_none_iff.mp foundP)
  | some e =>
    obtain ⟨he, hid⟩ := element?_eq_some_iff.mp foundP
    cases foundQ : sQ.element? id with
    | none =>
      have listed := sameIds.mp (hid ▸ List.mem_map_of_mem he)
      exact absurd listed (Table.get?_eq_none_iff.mp foundQ)
    | some e' =>
      obtain ⟨he', hid'⟩ := element?_eq_some_iff.mp foundQ
      refine .some ⟨fun kind held bonded => ?_, fun kind held bonded unlost => ?_⟩
      · rw [cP.bonded_iff he, hid] at bonded
        rw [cQ.bonded_iff he', hid']
        exact bonded.imp_right fun ⟨m, stated, bond⟩ => ⟨m, stated.of_merged, bond⟩
      · rw [cQ.bonded_iff he', hid'] at bonded
        rw [cP.bonded_iff he, hid]
        refine bonded.imp_right fun ⟨m, stated, bond⟩ => ?_
        obtain ⟨-, -, -, settled⟩ := cP.amended
        refine (stated.merged_or_eclipsed bond settled).resolve_right fun eclipses => unlost ?_
        have always := eclipses.always resolvedQ
        exact ⟨always, eclipses⟩

/-- A new composite and its new part, each with a reference to the other: one is dropped. -/
theorem merged_bonds_of_new_part :
    let domain : Domain := .ofTemplate ⟨⟨1⟩⟩ { id := ⟨⟨0⟩⟩, name := "template", version := {} }
    let item (n : Nat) (reference : TailoringReference) : TemplateItem :=
      { id := ⟨⟨n⟩⟩, nspace := domain.nspace, name := "item", elementType := .asset
        references := [reference] }
    let graph : TemplateGraph :=
      ⟨[item 10 ⟨⟨⟨20⟩⟩, ⟨⟨11⟩⟩, .part⟩, item 11 ⟨⟨⟨21⟩⟩, ⟨⟨10⟩⟩, .composite⟩], by decide⟩
    let s : Store := { units := .ofList [⟨⟨⟨2⟩⟩, "unit", [domain.id]⟩] }
    let request : IncarnationRequest := { unit := ⟨⟨2⟩⟩, domain := domain.id, items := [⟨⟨10⟩⟩] }
    let options : ResolveOptions := { lookup := .always }
    let fresh (n : Nat) : ElementId := ⟨⟨n + 50⟩⟩
    let composite : IncarnationDescription := {
      item := ⟨⟨10⟩⟩
      requested := true
      disposition := .create (fresh 0) true
      references := [⟨⟨⟨20⟩⟩, ⟨⟨11⟩⟩, .part, .planned 1, []⟩] }
    let part : IncarnationDescription := {
      item := ⟨⟨11⟩⟩
      requested := false
      disposition := .create (fresh 1) true
      references := [⟨⟨⟨21⟩⟩, ⟨⟨10⟩⟩, .composite, .planned 0, []⟩] }
    let Q : IncarnationPlan := {
      unit := request.unit
      domain := domain.id
      lookup := .always
      descriptions := [composite, part]
      creationOrder := [0, 1] }
    let P : IncarnationPlan := {
      Q with
      descriptions := [composite, { part with references := [] }]
      creationOrder := [1, 0] }
    let sP := (s.applyInPlace graph domain P).2
    let sQ := (s.applyInPlace graph domain Q).2
    resolve graph s.connect fresh request { options with mergeBidirectional := true } = .ok P ∧
      resolve graph s.connect fresh request { options with mergeBidirectional := false } = .ok Q ∧
      s.applyInPlace graph domain P =
        (.ok ⟨[fresh 0, fresh 1], [fresh 1, fresh 0], []⟩, sP) ∧
      s.applyInPlace graph domain Q =
        (.ok ⟨[fresh 0, fresh 1], [fresh 0, fresh 1], []⟩, sQ) ∧
      (sP.element? (fresh 0)).map (·.parts) = some [fresh 1] ∧
      ∀ id, Option.Rel
        (Element.KeepsBonds fun kind held => options.lookup = .always ∧ Q.Eclipses id kind held)
        (sP.element? id) (sQ.element? id) := by
  intro domain item graph s request options fresh composite part Q P sP sQ
  have resolvedP : resolve graph s.connect fresh request
      { options with mergeBidirectional := true } = .ok P := by decide +kernel
  have resolvedQ : resolve graph s.connect fresh request
      { options with mergeBidirectional := false } = .ok Q := by decide +kernel
  have succeededP : s.applyInPlace graph domain P =
      (.ok ⟨[fresh 0, fresh 1], [fresh 1, fresh 0], []⟩, sP) :=
    applyInPlace_of_answer (by decide +kernel)
  have succeededQ : s.applyInPlace graph domain Q =
      (.ok ⟨[fresh 0, fresh 1], [fresh 0, fresh 1], []⟩, sQ) :=
    applyInPlace_of_answer (by decide +kernel)
  exact ⟨resolvedP, resolvedQ, succeededP, succeededQ, by decide +kernel,
    merged_bonds graph domain s sP sQ fresh request options P Q _ _ resolvedP resolvedQ
      succeededP succeededQ⟩

/-- Merging may lose a bond. The composite is reused and comes first, so its reference to the new
part is the one that is kept, and it is not realized. -/
theorem merging_loses_part : ¬ ∀ (graph : TemplateGraph) (domain : Domain) (s sP sQ : Store)
    (fresh : Nat → ElementId) (request : IncarnationRequest) (options : ResolveOptions)
    (P Q : IncarnationPlan) (appliedP appliedQ : AppliedIncarnation),
    resolve graph s.connect fresh request { options with mergeBidirectional := true } = .ok P →
    resolve graph s.connect fresh request { options with mergeBidirectional := false } = .ok Q →
    s.applyInPlace graph domain P = (.ok appliedP, sP) →
    s.applyInPlace graph domain Q = (.ok appliedQ, sQ) →
    ∀ id, Option.Rel (Element.KeepsBonds fun _ _ => False) (sP.element? id) (sQ.element? id) := by
  intro lossless
  let domain : Domain := .ofTemplate ⟨⟨1⟩⟩ { id := ⟨⟨0⟩⟩, name := "template", version := {} }
  let item (n : Nat) (reference : TailoringReference) : TemplateItem :=
    { id := ⟨⟨n⟩⟩, nspace := domain.nspace, name := "item", elementType := .asset
      references := [reference] }
  let whole := item 10 ⟨⟨⟨20⟩⟩, ⟨⟨11⟩⟩, .part⟩
  let graph : TemplateGraph := ⟨[whole, item 11 ⟨⟨⟨21⟩⟩, ⟨⟨10⟩⟩, .composite⟩], by decide⟩
  let s : Store := {
    units := .ofList [⟨⟨⟨2⟩⟩, "unit", [domain.id]⟩]
    elements := .ofList [whole.toElement ⟨⟨3⟩⟩ ⟨⟨2⟩⟩ domain.id] }
  let request : IncarnationRequest := { unit := ⟨⟨2⟩⟩, domain := domain.id, items := [⟨⟨10⟩⟩] }
  let fresh (n : Nat) : ElementId := ⟨⟨n + 50⟩⟩
  let reused : IncarnationDescription := {
    item := ⟨⟨10⟩⟩
    requested := true
    disposition := .reuse ⟨⟨3⟩⟩
    references := [⟨⟨⟨20⟩⟩, ⟨⟨11⟩⟩, .part, .planned 1, []⟩] }
  let part : IncarnationDescription := {
    item := ⟨⟨11⟩⟩
    requested := false
    disposition := .create (fresh 0) true
    references := [⟨⟨⟨21⟩⟩, ⟨⟨10⟩⟩, .composite, .planned 0, []⟩] }
  let Q : IncarnationPlan := {
    unit := request.unit
    domain := domain.id
    lookup := .always
    descriptions := [reused, part]
    creationOrder := [0, 1] }
  let P : IncarnationPlan := {
    Q with
    descriptions := [reused, { part with references := [] }]
    creationOrder := [1, 0] }
  let sP := (s.applyInPlace graph domain P).2
  let sQ := (s.applyInPlace graph domain Q).2
  have related := lossless graph domain s sP sQ fresh request { lookup := .always } P Q
    ⟨[⟨⟨3⟩⟩, fresh 0], [fresh 0], []⟩ ⟨[⟨⟨3⟩⟩, fresh 0], [fresh 0], [⟨⟨3⟩⟩]⟩ (by decide +kernel)
    (by decide +kernel) (applyInPlace_of_answer (by decide +kernel))
    (applyInPlace_of_answer (by decide +kernel)) ⟨⟨3⟩⟩
  let held := whole.toElement ⟨⟨3⟩⟩ ⟨⟨2⟩⟩ domain.id
  have unchanged : sP.element? ⟨⟨3⟩⟩ = some held := by decide +kernel
  have composed : sQ.element? ⟨⟨3⟩⟩ = some { held with parts := [fresh 0] } := by decide +kernel
  rw [unchanged, composed] at related
  cases related with
  | some keeps =>
    have kept : fresh 0 ∈ held.parts := keeps.complete .part (fresh 0) List.mem_cons_self id
    cases kept

end Store

end TemplateCatalog
