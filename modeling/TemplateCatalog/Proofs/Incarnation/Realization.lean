import TemplateCatalog.Proofs.Incarnation.InPlace
import TemplateCatalog.Proofs.Incarnation.Relations

/-!
# What an application realizes

An application makes the amendments of the references of created elements, one
after the other, and no others. `Workspace.Amended` says what such a sequence
does to all elements at once: each of them gets the amendments that are for it.

Results:
1. `Workspace.Amended.of_update`, `Workspace.Amended.trans`: one amendment, and
   two sequences of them.
2. `Application.wireAll_amended`: wiring makes the amendments that the creating
   descriptions state.
3. `Store.Committed.origin`: an element of the store that is left is a stored
   one or a new one without relations, amended as it is stated.
4. `Store.applyInPlace_wired`: what is stated is realized, nothing else is, and
   nothing twice.
-/

namespace TemplateCatalog

namespace Workspace

variable {ws ws' ws'' : Workspace} {id holder : ElementId} {f : Element → Element} {e : Element}

/-! ## One change -/

theorem find?_updateIn {es : List Element} (core : ∀ e, (f e).core = e.core) :
    find? (updateIn es holder f) id =
      (find? es id).map fun e => if e.id = holder then f e else e := by
  unfold find? updateIn
  rw [List.find?_map]
  congr 2
  funext e
  show decide ((if e.id = holder then f e else e).id = id) = decide (e.id = id)
  split
  · rw [Element.eq_of_core Element.id (fun _ => rfl) (core e)]
  · rfl

theorem find?_updateIn_self {es : List Element} (core : ∀ e, (f e).core = e.core)
    (h : find? es id = some e) : find? (updateIn es id f) id = some (f e) := by
  rw [find?_updateIn core, h, Option.map_some, if_pos (find?_eq_some h).2]

theorem find?_updateIn_of_ne {es : List Element} (core : ∀ e, (f e).core = e.core)
    (ne : id ≠ holder) : find? (updateIn es holder f) id = find? es id := by
  rw [find?_updateIn core]
  cases h : find? es id with
  | none => rfl
  | some e => rw [Option.map_some, (find?_eq_some h).2, if_neg ne]

theorem find?_append_singleton {es : List Element} :
    find? (es ++ [e]) id = (find? es id).or (if e.id = id then some e else none) := by
  unfold find?
  rw [List.find?_append, List.find?_singleton]
  congr 1
  by_cases same : e.id = id <;> simp [same]

theorem id_of_element (h : ws.element id = .ok e) : e.id = id := by
  rcases element_eq_ok h with created | ⟨-, modified | ⟨-, loaded⟩⟩
  · exact (find?_eq_some created).2
  · exact (find?_eq_some modified).2
  · exact (load_eq_ok loaded).2.1

theorem element_update_self (core : ∀ e, (f e).core = e.core) (h : ws.update id f = .ok ws') :
    ∃ e, ws.element id = .ok e ∧ ws'.element id = .ok (f e) := by
  obtain ⟨e, found, ⟨hc, rfl⟩ | ⟨hc, ⟨hm, rfl⟩ | ⟨hm, rfl⟩⟩⟩ := update_cases h
  · exact ⟨e, found, element_of_created (find?_updateIn_self core hc)⟩
  · exact ⟨e, found, element_of_modified hc (find?_updateIn_self core hm)⟩
  · have same : (f e).id = id :=
      (Element.eq_of_core Element.id (fun _ => rfl) (core e)).trans (id_of_element found)
    refine ⟨e, found, element_of_modified hc ?_⟩
    show find? (ws.modified ++ [f e]) id = some (f e)
    rw [find?_append_singleton, hm, if_pos same, Option.none_or]

theorem element_update_of_ne (core : ∀ e, (f e).core = e.core) (ne : id ≠ holder)
    (h : ws.update holder f = .ok ws') : ws'.element id = ws.element id := by
  obtain ⟨e, found, ⟨-, rfl⟩ | ⟨-, ⟨-, rfl⟩ | ⟨-, rfl⟩⟩⟩ := update_cases h
  · unfold element
    rw [find?_updateIn_of_ne core ne]
    rfl
  · unfold element
    rw [find?_updateIn_of_ne core ne]
    rfl
  · have other : (f e).id ≠ id := by
      rw [Element.eq_of_core Element.id (fun _ => rfl) (core e), id_of_element found]
      exact ne.symm
    unfold element
    rw [find?_append_singleton, if_neg other, Option.or_none]
    rfl

/-! ## A sequence of amendments -/

/-- The amendments of a sequence that are for one element. -/
def amendmentsOf (id : ElementId) (log : List (ElementId × Amendment)) : List Amendment :=
  (log.filter fun p => p.1 = id).map (·.2)

theorem mem_amendmentsOf {log : List (ElementId × Amendment)} {m : Amendment} :
    m ∈ amendmentsOf id log ↔ (id, m) ∈ log := by
  simp [amendmentsOf]

theorem amendmentsOf_append (id : ElementId) (log log' : List (ElementId × Amendment)) :
    amendmentsOf id (log ++ log') = amendmentsOf id log ++ amendmentsOf id log' := by
  simp [amendmentsOf]

/-- The second workspace is the first after a sequence of amendments. -/
structure Amended (log : List (ElementId × Amendment)) (ws ws' : Workspace) : Prop where
  elements : ∀ id, ws'.element id = (ws.element id).map fun e => e.amend (amendmentsOf id log)
  /-- Only elements that the first workspace finds are amended. -/
  holders : ∀ p ∈ log, ∃ e, ws.element p.1 = .ok e
  cores : ws'.created.map Element.core = ws.created.map Element.core

namespace Amended

variable {log log' : List (ElementId × Amendment)}

theorem refl (ws : Workspace) : Amended [] ws ws where
  elements id := by
    cases h : ws.element id with
    | error e => rfl
    | ok e => rfl
  holders := fun _ => nofun
  cores := rfl

theorem of_update {m : Amendment} (h : ws.update holder m.apply = .ok ws') :
    Amended [(holder, m)] ws ws' := by
  obtain ⟨e, found, changed⟩ := element_update_self (Amendment.core_apply m) h
  refine ⟨fun id => ?_, List.forall_mem_singleton.mpr ⟨e, found⟩,
    update_created_cores (Amendment.core_apply m) h⟩
  by_cases same : id = holder
  · rw [same, changed, found, amendmentsOf, List.filter_singleton, decide_eq_true rfl]
    rfl
  · rw [element_update_of_ne (Amendment.core_apply m) same h, amendmentsOf, List.filter_singleton,
      decide_eq_false (Ne.symm same)]
    cases ws.element id with
    | error e => rfl
    | ok e => rfl

theorem trans (h : Amended log ws ws') (h' : Amended log' ws' ws'') :
    Amended (log ++ log') ws ws'' where
  elements id := by
    rw [h'.elements, h.elements, amendmentsOf_append]
    cases ws.element id with
    | error e => rfl
    | ok e => exact congrArg Except.ok (e.amend_append _ _).symm
  holders := by
    refine List.forall_mem_append.mpr ⟨h.holders, fun p hp => ?_⟩
    obtain ⟨e', found⟩ := h'.holders p hp
    rw [h.elements] at found
    obtain ⟨e, found, -⟩ := except_map_eq_ok.mp found
    exact ⟨e, found⟩
  cores := h'.cores.trans h.cores

end Amended

end Workspace

/-! ## Wiring -/

/-- The target of a reference is known, and so are the other ends that an amendment needs. -/
def Wiring.Settles (x : Wiring) (r : ResolvedReference) : Prop :=
  (∃ target, x.plan.targetElement x.description r.target = .ok target) ∧
    (r.kind.type.isCopy = true ∨ ∃ p, x.amendment? r = some p)

namespace Application

open Workspace

variable {a : Application} {ws ws' : Workspace}

theorem wireReferences_amended {x : Wiring} {rs : List ResolvedReference}
    (new : x.origin ∈ ws.created.map (·.id)) (h : wireReferences x ws rs = .ok ws') :
    Amended (rs.filterMap x.amendment?) ws ws' ∧ ∀ r ∈ rs, x.Settles r := by
  induction rs generalizing ws with
  | nil =>
    cases h
    exact ⟨.refl _, fun _ => nofun⟩
  | cons r rest ih =>
    obtain ⟨mid, wired, behind⟩ := except_bind_eq_ok.mp h
    have target := Wiring.targetElement_of_wire wired
    rw [List.filterMap_cons, List.forall_mem_cons]
    rcases Wiring.wire_cases new wired with ⟨copy, rfl⟩ | ⟨holder, m, stated, -, updated⟩
    · obtain ⟨amended, settled⟩ := ih new behind
      rw [Wiring.amendment?_of_isCopy copy]
      exact ⟨amended, ⟨target, .inl copy⟩, settled⟩
    · have step := Amended.of_update updated
      rw [← ids_of_cores step.cores] at new
      obtain ⟨amended, settled⟩ := ih new behind
      rw [stated]
      exact ⟨step.trans amended, ⟨target, .inr ⟨_, stated⟩⟩, settled⟩

/-- The amendments that the creating ones among descriptions state, in turn. -/
def amendments (a : Application) (ds : List IncarnationDescription) :
    List (ElementId × Amendment) :=
  (ds.filter (·.disposition.isCreate)).flatMap fun d =>
    d.references.filterMap (Wiring.amendment? ⟨a.domain, a.plan, d⟩)

/-- A reference of a creating description says that an element is amended so. -/
def States (a : Application) (id : ElementId) (m : Amendment) : Prop :=
  ∃ d ∈ a.plan.descriptions, d.disposition.isCreate = true ∧
    ∃ r ∈ d.references, Wiring.amendment? ⟨a.domain, a.plan, d⟩ r = some (id, m)

theorem mem_amendments {id : ElementId} {m : Amendment} :
    (id, m) ∈ a.amendments a.plan.inCreationOrder ↔ a.States id m := by
  simp only [amendments, States, List.mem_flatMap, List.mem_filter, List.mem_filterMap,
    IncarnationPlan.mem_inCreationOrder, and_assoc]

theorem wireAll_amended {ds : List IncarnationDescription}
    (new : ∀ d ∈ ds, d.disposition.isCreate = true →
      d.disposition.element ∈ ws.created.map (·.id))
    (h : a.wireAll ws ds = .ok ws') :
    Amended (a.amendments ds) ws ws' ∧ ∀ d ∈ ds, d.disposition.isCreate = true →
      ∀ r ∈ d.references, Wiring.Settles ⟨a.domain, a.plan, d⟩ r := by
  induction ds generalizing ws with
  | nil =>
    cases h
    exact ⟨.refl _, fun _ => nofun⟩
  | cons d rest ih =>
    obtain ⟨newHead, newRest⟩ := List.forall_mem_cons.mp new
    rw [List.forall_mem_cons]
    unfold wireAll at h
    split at h
    · next creates =>
      obtain ⟨mid, wired, h⟩ := except_bind_eq_ok.mp h
      obtain ⟨step, settled⟩ := wireReferences_amended (newHead creates) wired
      rw [← ids_of_cores step.cores] at newRest
      obtain ⟨amended, settledRest⟩ := ih newRest h
      rw [amendments, List.filter_cons, if_pos creates, List.flatMap_cons]
      exact ⟨step.trans amended, fun _ => settled, settledRest⟩
    · next reuses =>
      obtain ⟨amended, settledRest⟩ := ih newRest h
      rw [amendments, List.filter_cons, if_neg reuses]
      exact ⟨amended, fun creates => absurd creates reuses, settledRest⟩

end Application

namespace Store

open Workspace

variable {s s' : Store} {a : Application} {applied : AppliedIncarnation} {ws : Workspace}
  {id : ElementId} {m : Amendment} {e : Element}

theorem element?_eq_some_iff : s.element? id = some e ↔ e ∈ s.elements.rows ∧ e.id = id :=
  Table.get?_eq_some_iff

/-! ## What is left in the store -/

theorem Committed.mem_of_element (c : Committed s a applied s' ws) (h : ws.element id = .ok e) :
    e ∈ s'.elements.rows := by
  rw [c.rows]
  rcases element_eq_ok h with created | ⟨-, modified | ⟨unchanged, loaded⟩⟩
  · exact List.mem_append_right _ (find?_eq_some created).1
  · have hm := (find?_eq_some modified).1
    obtain ⟨x, hx, -, grown⟩ := c.reached.modified_origin c.connection hm
    refine List.mem_append_left _ (List.mem_map.mpr ⟨x, hx, ?_⟩)
    have found : find? ws.modified x.id = some e := by
      rw [← grown.id_eq]
      exact find?_of_mem c.reached.tracked.modified_ids hm
    unfold find? at found
    rw [Table.replacement, found]
    rfl
  · obtain ⟨stored, rfl, -⟩ := load_eq_ok loaded
    rw [c.reached.connection_eq.1, c.connection] at stored
    refine List.mem_append_left _ (List.mem_map.mpr ⟨e, stored, ?_⟩)
    unfold find? at unchanged
    rw [Table.replacement, unchanged]
    rfl

theorem Committed.element_of_mem (c : Committed s a applied s' ws) (he : e ∈ s'.elements.rows) :
    ws.element e.id = .ok e ∨ e ∈ s.elements.rows := by
  have tracked := c.reached.tracked
  rcases c.mem_rows he with created | modified | stored
  · exact .inl (element_of_created (find?_of_mem tracked.created_ids created))
  · obtain ⟨x, hx, -, grown⟩ := c.reached.modified_origin c.connection modified
    -- a changed element was stored before, so it is none of the new ones
    have old : find? ws.created e.id = none := by
      refine find?_eq_none_iff.mpr fun listed => ?_
      obtain ⟨new, hnew, same⟩ := List.mem_map.mp listed
      refine c.fresh new hnew ?_
      rw [same, grown.id_eq]
      exact List.mem_map_of_mem hx
    exact .inl (element_of_modified old (find?_of_mem tracked.modified_ids modified))
  · exact .inr stored

/-- What wiring starts from: an element without relations, or a stored one. -/
theorem Committed.start_cases (c : Committed s a applied s' ws) {start : Workspace}
    (instantiates : a.Instantiates start) (h : start.element id = .ok e) :
    e.core = e ∨ e ∈ s.elements.rows ∧ e.id = id := by
  rcases element_eq_ok h with created | ⟨-, modified | ⟨-, loaded⟩⟩
  · exact .inl (instantiates.bare e (find?_eq_some created).1)
  · rw [instantiates.modified] at modified
    cases modified
  · obtain ⟨stored, hid, -⟩ := load_eq_ok loaded
    rw [instantiates.reached.connection_eq.1, c.connection] at stored
    exact .inr ⟨stored, hid⟩

theorem Committed.amended (c : Committed s a applied s' ws) : ∃ start, a.Instantiates start ∧
    Amended (a.amendments a.plan.inCreationOrder) start ws ∧
    ∀ d ∈ a.plan.descriptions, d.disposition.isCreate = true →
      ∀ r ∈ d.references, Wiring.Settles ⟨a.domain, a.plan, d⟩ r := by
  obtain ⟨start, instantiates, wired⟩ := c.wired
  obtain ⟨amended, settled⟩ := Application.wireAll_amended instantiates.there wired
  refine ⟨start, instantiates, amended, fun d hd => ?_⟩
  exact settled d (IncarnationPlan.mem_inCreationOrder.mpr hd)

/-- An element of the store that is left is a stored or a new one with what is stated of it. -/
theorem Committed.origin (c : Committed s a applied s' ws) (he : e ∈ s'.elements.rows) :
    ∃ base ms, e = Element.amend base ms ∧ (∀ m ∈ ms, a.States e.id m) ∧
      (base.core = base ∨ base ∈ s.elements.rows ∧ base.id = e.id) := by
  rcases c.element_of_mem he with found | stored
  · obtain ⟨start, instantiates, amended, -⟩ := c.amended
    rw [amended.elements] at found
    obtain ⟨base, begun, same⟩ := except_map_eq_ok.mp found
    refine ⟨base, _, same.symm, fun m hm => ?_, c.start_cases instantiates begun⟩
    exact Application.mem_amendments.mp (mem_amendmentsOf.mp hm)
  · exact ⟨e, [], rfl, fun _ => nofun, .inr ⟨stored, rfl⟩⟩

theorem Committed.shows (c : Committed s a applied s' ws) (h : a.States id m) :
    ∃ e, s'.element? id = some e ∧ e.Shows m := by
  obtain ⟨start, -, amended, -⟩ := c.amended
  have listed := Application.mem_amendments.mpr h
  obtain ⟨base, begun⟩ := amended.holders _ listed
  have found := amended.elements id
  rw [begun] at found
  refine ⟨_, element?_eq_some_iff.mpr ⟨c.mem_of_element found, id_of_element found⟩, ?_⟩
  exact Element.shows_amend (mem_amendmentsOf.mpr listed) base

/-! ## Exact wiring -/

/-- The element with the identifier has a relation, exactly as an amendment gives it. -/
def Holds (s : Store) (id : ElementId) (m : Amendment) : Prop :=
  ∃ e, s.element? id = some e ∧ e.Holds m

/-- What a reference from an element to another means for the two of them. -/
def Realizes (s : Store) (origin target : ElementId) : ReferenceKind → Prop
  | .copy | .copyAlways => True
  | .link linkType _ =>
    ∃ e, s.element? origin = some e ∧ ∃ l ∈ e.links, l.linkType = linkType ∧ l.target = target
  | .linkExternal linkType _ =>
    ∃ e, s.element? target = some e ∧ ∃ l ∈ e.links, l.linkType = linkType ∧ l.target = origin
  | .part => ∃ e, s.element? origin = some e ∧ target ∈ e.parts
  | .composite => ∃ e, s.element? target = some e ∧ origin ∈ e.parts
  | .scope => ∃ e, s.element? target = some e ∧ origin ∈ e.members
  | .member => ∃ e, s.element? origin = some e ∧ target ∈ e.members
  | .risk _ _ values =>
    ∃ e, s.element? origin = some e ∧ ∃ r ∈ e.risks, r.scenario = target ∧ values ⊆ r.values
  | .controlImplementation _ _ =>
    ∃ e, s.element? origin = some e ∧ ∃ c ∈ e.controlImplementations, c.control = target
  | .requirementImplementation _ _ _ =>
    ∃ e, s.element? origin = some e ∧ ∃ r ∈ e.requirementImplementations, r.control = target

/-- To show the amendment of a reference is to realize the reference. -/
theorem realizes_of_shows {x : Wiring} {r : ResolvedReference} {target : ElementId}
    (found : x.plan.targetElement x.description r.target = .ok target)
    (stated : x.amendment? r = some (id, m))
    (shown : ∃ e, s.element? id = some e ∧ e.Shows m) : s.Realizes x.origin target r.kind := by
  obtain ⟨t, known, stated⟩ := Option.bind_eq_some_iff.mp stated
  rw [found] at known
  cases known
  cases hk : r.kind with
  | copy | copyAlways => trivial
  | link | linkExternal | part | composite | scope | member =>
    simp only [hk] at stated
    obtain ⟨rfl, rfl⟩ := Prod.mk.inj (Option.some.inj stated)
    exact shown
  | risk owner mitigation values =>
    simp only [hk] at stated
    obtain ⟨p, -, stated⟩ := Option.bind_eq_some_iff.mp stated
    obtain ⟨c, -, stated⟩ := Option.bind_eq_some_iff.mp stated
    obtain ⟨rfl, rfl⟩ := Prod.mk.inj (Option.some.inj stated)
    exact shown
  | controlImplementation | requirementImplementation =>
    simp only [hk] at stated
    obtain ⟨p, -, stated⟩ := Option.bind_eq_some_iff.mp stated
    obtain ⟨rfl, rfl⟩ := Prod.mk.inj (Option.some.inj stated)
    exact shown

/-- What an application leaves of the relations that its plan states. -/
structure Wired (s : Store) (a : Application) (applied : AppliedIncarnation) (s' : Store) :
    Prop where
  /-- Every reference of a created element has a target, and it is realized. -/
  realized : ∀ d ∈ a.plan.descriptions, d.disposition.isCreate = true → ∀ r ∈ d.references,
    ∃ target, a.plan.targetElement d r.target = .ok target ∧
      s'.Realizes d.disposition.element target r.kind
  /-- What was not stored before is stated. -/
  explained : ∀ e ∈ s'.elements.rows, e.Explained fun m => s.Holds e.id m ∨ a.States e.id m
  /-- Created elements have what is stated only, and nothing twice. -/
  created : ∀ e ∈ s'.elements.rows, e.id ∈ applied.created →
    e.Explained (a.States e.id) ∧ e.Unrepeated

theorem Committed.realized (c : Committed s a applied s' ws) {d : IncarnationDescription}
    (hd : d ∈ a.plan.descriptions) (creates : d.disposition.isCreate = true)
    {r : ResolvedReference} (hr : r ∈ d.references) :
    ∃ target, a.plan.targetElement d r.target = .ok target ∧
      s'.Realizes d.disposition.element target r.kind := by
  obtain ⟨start, -, -, settled⟩ := c.amended
  obtain ⟨⟨target, found⟩, copy | ⟨⟨id, m⟩, stated⟩⟩ := settled d hd creates r hr
  · refine ⟨target, found, ?_⟩
    rcases ReferenceKind.isCopy_type_iff.mp copy with copy | copy
    · rw [copy]
      trivial
    · rw [copy]
      trivial
  · exact ⟨target, found, realizes_of_shows found stated (c.shows ⟨d, hd, creates, r, hr, stated⟩)⟩

theorem Committed.explained (c : Committed s a applied s' ws) (he : e ∈ s'.elements.rows) :
    e.Explained fun m => s.Holds e.id m ∨ a.States e.id m := by
  obtain ⟨base, ms, same, stated, begun⟩ := c.origin he
  have held : base.Explained fun m => s.Holds e.id m ∨ a.States e.id m := by
    rcases begun with bare | ⟨stored, hid⟩
    · exact Element.explained_of_bare bare
    · refine Element.explained_of_holds fun m hm => .inl ⟨base, ?_, hm⟩
      exact element?_eq_some_iff.mpr ⟨stored, hid⟩
  have explained := held.amend fun m hm => .inr (stated m hm)
  rw [← same] at explained
  exact explained

theorem Committed.created_exact (c : Committed s a applied s' ws) (he : e ∈ s'.elements.rows)
    (new : e.id ∈ applied.created) : e.Explained (a.States e.id) ∧ e.Unrepeated := by
  obtain ⟨base, ms, same, stated, bare | ⟨stored, hid⟩⟩ := c.origin he
  · have explained := (Element.explained_of_bare bare).amend stated
    have unrepeated := (Element.unrepeated_of_bare bare).amend ms
    rw [← same] at explained unrepeated
    exact ⟨explained, unrepeated⟩
  · rw [c.created] at new
    obtain ⟨x, hx, sameId⟩ := List.mem_map.mp new
    refine absurd ?_ (c.fresh x hx)
    rw [sameId, ← hid]
    exact List.mem_map_of_mem stored

/-- Applications realize what creating descriptions state, nothing else, and nothing twice. -/
theorem applyInPlace_wired (s s' : Store) (graph : TemplateGraph) (domain : Domain)
    (plan : IncarnationPlan) (applied : AppliedIncarnation)
    (h : s.applyInPlace graph domain plan = (.ok applied, s')) :
    s.Wired ⟨s.connect, graph, domain, plan⟩ applied s' := by
  obtain ⟨ws, c⟩ := applyInPlace_ok h
  refine ⟨fun d hd creates r hr => ?_, fun e he => ?_, fun e he new => ?_⟩
  · exact c.realized hd creates hr
  · exact c.explained he
  · exact c.created_exact he new

/-- A new process joins a stored scope, links to it, and has a risk for a new scenario. -/
theorem applyInPlace_wired_of_process :
    let domain : Domain := .ofTemplate ⟨⟨1⟩⟩ { id := ⟨⟨0⟩⟩, name := "template", version := {} }
    let item (n : Nat) (elementType : ElementType) : TemplateItem :=
      { id := ⟨⟨n⟩⟩, nspace := domain.nspace, name := "item", elementType }
    let s : Store := {
      units := .ofList [⟨⟨⟨2⟩⟩, "unit", [domain.id]⟩]
      elements := .ofList [(item 10 .scope).toElement ⟨⟨3⟩⟩ ⟨⟨2⟩⟩ domain.id] }
    let graph : TemplateGraph := ⟨[item 11 .process, item 12 .scenario], by decide⟩
    let plan : IncarnationPlan := {
      unit := ⟨⟨2⟩⟩
      domain := domain.id
      lookup := .forReferencedItems
      descriptions := [
        { item := ⟨⟨11⟩⟩
          requested := true
          disposition := .create ⟨⟨4⟩⟩ false
          references := [
            ⟨⟨⟨20⟩⟩, ⟨⟨10⟩⟩, .scope, .existing ⟨⟨3⟩⟩, []⟩,
            ⟨⟨⟨21⟩⟩, ⟨⟨10⟩⟩, .plainLink "uses", .existing ⟨⟨3⟩⟩, []⟩,
            ⟨⟨⟨22⟩⟩, ⟨⟨12⟩⟩, .plainRisk, .planned 1, []⟩] },
        { item := ⟨⟨12⟩⟩, requested := false, disposition := .create ⟨⟨5⟩⟩ false }]
      creationOrder := [1, 0] }
    let applied : AppliedIncarnation :=
      { elements := [⟨⟨4⟩⟩, ⟨⟨5⟩⟩], created := [⟨⟨5⟩⟩, ⟨⟨4⟩⟩], modified := [⟨⟨3⟩⟩] }
    let s' := (s.applyInPlace graph domain plan).2
    s.applyInPlace graph domain plan = (.ok applied, s') ∧
      s'.elements.rows.map (fun e =>
          (e.id, e.members, e.links.map (·.target), e.risks.map (·.scenario))) =
        [(⟨⟨3⟩⟩, [⟨⟨4⟩⟩], [], []), (⟨⟨5⟩⟩, [], [], []), (⟨⟨4⟩⟩, [], [⟨⟨3⟩⟩], [⟨⟨5⟩⟩])] ∧
      s.Wired ⟨s.connect, graph, domain, plan⟩ applied s' := by
  intro domain item s graph plan applied s'
  have succeeded : s.applyInPlace graph domain plan = (.ok applied, s') := rfl
  exact ⟨succeeded, by decide, applyInPlace_wired s s' graph domain plan applied succeeded⟩

end Store

end TemplateCatalog
