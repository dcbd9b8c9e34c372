import Mathlib.Data.List.Infix
import TemplateCatalog.Incarnation.Wiring

/-!
# What wiring adds to an element

Wiring changes elements by six kinds of amendments only: a link, a part, a
member, a risk, and the two kinds of implementations. Whatever the amendment,
the data of the element besides its relations stays as it was.

Links, parts and members may be added to an element that was there before.
`Element.Grows` says that nothing else happened to it, and that its own
relations come first.

Results:
1. `Amendment.core_apply`: no amendment touches the core of an element.
2. `Amendment.grows_apply`: links, parts and members make an element grow.
3. `Element.Grows.trans`: growth adds up over any number of amendments.
4. `Element.risks_updateRisk`: a risk is changed in its place, or appended.
-/

namespace TemplateCatalog

namespace Element

/-- An element without its relations. -/
def core (e : Element) : Element :=
  { e with
    links := []
    parts := []
    members := []
    risks := []
    controlImplementations := []
    requirementImplementations := [] }

/-- Elements of one core agree on everything that is read off the core. -/
theorem eq_of_core {α : Type} (field : Element → α) (ofCore : ∀ e, field e.core = field e)
    {e e' : Element} (h : e'.core = e.core) : field e' = field e := by
  rw [← ofCore e', h, ofCore]

/-- The second element is the first with further links, parts and members behind its own. -/
structure Grows (e e' : Element) : Prop where
  rest : { e' with links := e.links, parts := e.parts, members := e.members } = e
  links : e.links <+: e'.links
  parts : e.parts <+: e'.parts
  members : e.members <+: e'.members

namespace Grows

theorem refl (e : Element) : e.Grows e :=
  ⟨rfl, List.prefix_rfl, List.prefix_rfl, List.prefix_rfl⟩

theorem trans {e e' e'' : Element} (h : e.Grows e') (h' : e'.Grows e'') : e.Grows e'' := by
  refine ⟨?_, h.links.trans h'.links, h.parts.trans h'.parts, h.members.trans h'.members⟩
  have step := congrArg
    (fun x : Element => { x with links := e.links, parts := e.parts, members := e.members }) h'.rest
  exact step.trans h.rest

theorem core_eq {e e' : Element} (h : e.Grows e') : e'.core = e.core := by
  have kept := congrArg core h.rest
  exact kept

theorem id_eq {e e' : Element} (h : e.Grows e') : e'.id = e.id :=
  eq_of_core Element.id (fun _ => rfl) h.core_eq

theorem owner_eq {e e' : Element} (h : e.Grows e') : e'.owner = e.owner :=
  eq_of_core Element.owner (fun _ => rfl) h.core_eq

theorem domain_eq {e e' : Element} (h : e.Grows e') : e'.domain = e.domain :=
  eq_of_core Element.domain (fun _ => rfl) h.core_eq

theorem name_eq {e e' : Element} (h : e.Grows e') : e'.name = e.name :=
  eq_of_core Element.name (fun _ => rfl) h.core_eq

theorem elementType_eq {e e' : Element} (h : e.Grows e') : e'.elementType = e.elementType :=
  eq_of_core Element.elementType (fun _ => rfl) h.core_eq

theorem risks_eq {e e' : Element} (h : e.Grows e') : e'.risks = e.risks := by
  have kept := congrArg risks h.rest
  exact kept

theorem riskValues_eq {e e' : Element} (h : e.Grows e') : e'.riskValues = e.riskValues := by
  unfold Element.riskValues
  rw [h.risks_eq]

end Grows

end Element

/-! ## Risks -/

namespace Risk

theorem addValue_rest (r : Risk) (v : RiskValueRef) :
    r.addValue v = { r with values := (r.addValue v).values } := by
  unfold addValue
  split <;> rfl

theorem mem_addValue {r : Risk} {v w : RiskValueRef} :
    w ∈ (r.addValue v).values ↔ w ∈ r.values ∨ w = v := by
  unfold addValue
  split
  · next present =>
    refine ⟨.inl, ?_⟩
    rintro (h | rfl)
    · exact h
    · exact present
  · simp

theorem addValues_rest (r : Risk) (vs : List RiskValueRef) :
    r.addValues vs = { r with values := (r.addValues vs).values } := by
  induction vs generalizing r with
  | nil => rfl
  | cons v rest ih =>
    have one := addValue_rest r v
    exact (ih (r.addValue v)).trans
      (congrArg (fun x : Risk => { x with values := ((r.addValue v).addValues rest).values }) one)

theorem mem_addValues {r : Risk} {vs : List RiskValueRef} {w : RiskValueRef} :
    w ∈ (r.addValues vs).values ↔ w ∈ r.values ∨ w ∈ vs := by
  induction vs generalizing r with
  | nil => simp [addValues]
  | cons v rest ih =>
    show w ∈ ((r.addValue v).addValues rest).values ↔ _
    rw [ih, mem_addValue, List.mem_cons, or_assoc]

end Risk

theorem Element.updateRisk_rest (e : Element) (scenario : ElementId) (domain : DomainId)
    (f : Risk → Risk) :
    e.updateRisk scenario domain f =
      { e with risks := (e.updateRisk scenario domain f).risks } := by
  unfold updateRisk
  split <;> rfl

/-- An update changes the first risk for the scenario in its place, or it appends a new one. -/
theorem Element.risks_updateRisk (e : Element) (scenario : ElementId) (domain : DomainId)
    (f : Risk → Risk) :
    (∃ before r behind, e.risks = before ++ r :: behind ∧ r.scenario = scenario ∧
        (e.updateRisk scenario domain f).risks = before ++ f r :: behind) ∨
      (∀ r ∈ e.risks, r.scenario ≠ scenario) ∧
        (e.updateRisk scenario domain f).risks = e.risks ++ [f { scenario, domain }] := by
  unfold updateRisk
  split
  · next i found =>
    obtain ⟨inside, same, -⟩ := List.findIdx?_eq_some_iff_getElem.mp found
    refine .inl ⟨e.risks.take i, e.risks[i], e.risks.drop (i + 1), ?_, beq_iff_eq.mp same,
      List.modify_eq_take_cons_drop inside⟩
    rw [List.getElem_cons_drop, List.take_append_drop]
  · next none =>
    refine .inr ⟨fun r hr same => ?_, rfl⟩
    have other := List.findIdx?_eq_none_iff.mp none r hr
    rw [same, beq_self_eq_true] at other
    cases other

/-- A risk after an update is one from before, or what the update makes of a risk. -/
theorem Element.mem_risks_updateRisk {e : Element} {scenario : ElementId} {domain : DomainId}
    {f : Risk → Risk} {r : Risk} (h : r ∈ (e.updateRisk scenario domain f).risks) :
    r ∈ e.risks ∨
      ∃ x, r = f x ∧ x.scenario = scenario ∧ (x ∈ e.risks ∨ x = { scenario, domain }) := by
  rcases e.risks_updateRisk scenario domain f with
    ⟨before, x, behind, split, same, updated⟩ | ⟨-, new⟩
  · rw [split]
    rw [updated, List.mem_append, List.mem_cons] at h
    rcases h with old | rfl | old
    · exact .inl (List.mem_append_left _ old)
    · exact .inr ⟨x, rfl, same, .inl (List.mem_append_right _ List.mem_cons_self)⟩
    · exact .inl (List.mem_append_right _ (List.mem_cons_of_mem _ old))
  · rw [new] at h
    rcases List.mem_append.mp h with old | added
    · exact .inl old
    · exact .inr ⟨_, List.mem_singleton.mp added, rfl, .inr rfl⟩

/-! ## Amendments -/

inductive Amendment where
  | link (l : CustomLink)
  | part (p : ElementId)
  | member (m : ElementId)
  /-- The given owner and mitigation replace those of the risk; values are added. -/
  | risk (scenario : ElementId) (domain : DomainId) (owner mitigation : Option ElementId)
      (values : List RiskValueRef)
  | control (c : ControlImplementation)
  | requirement (r : RequirementImplementation)

namespace Amendment

def apply : Amendment → Element → Element
  | .link l, e => e.addLink l
  | .part p, e => e.addPart p
  | .member m, e => e.addMember m
  | .risk scenario domain owner mitigation values, e =>
    e.updateRisk scenario domain fun risk =>
      ({ risk with
        owner := owner.or risk.owner
        mitigation := mitigation.or risk.mitigation }).addValues values
  | .control c, e => e.addControlImplementation c
  | .requirement r, e => e.addRequirementImplementation r

/-- Whether an element that was there before may be amended so. -/
def isOpen : Amendment → Bool
  | .link _ | .part _ | .member _ => true
  | .risk .. | .control _ | .requirement _ => false

theorem core_apply (a : Amendment) (e : Element) : (a.apply e).core = e.core := by
  cases a with
  | link l =>
    show (e.addLink l).core = e.core
    unfold Element.addLink
    split <;> rfl
  | part p =>
    show (e.addPart p).core = e.core
    unfold Element.addPart
    split <;> rfl
  | member m =>
    show (e.addMember m).core = e.core
    unfold Element.addMember
    split <;> rfl
  | risk scenario domain owner mitigation values =>
    show (e.updateRisk scenario domain _).core = e.core
    unfold Element.updateRisk
    split <;> rfl
  | control c =>
    show (e.addControlImplementation c).core = e.core
    unfold Element.addControlImplementation
    split <;> rfl
  | requirement r =>
    show (e.addRequirementImplementation r).core = e.core
    unfold Element.addRequirementImplementation
    split <;> rfl

theorem grows_apply {a : Amendment} (isOpen : a.isOpen = true) (e : Element) :
    e.Grows (a.apply e) := by
  cases a with
  | link l =>
    show e.Grows (e.addLink l)
    unfold Element.addLink
    split
    · exact .refl e
    · exact ⟨rfl, List.prefix_append _ _, List.prefix_rfl, List.prefix_rfl⟩
  | part p =>
    show e.Grows (e.addPart p)
    unfold Element.addPart
    split
    · exact .refl e
    · exact ⟨rfl, List.prefix_rfl, List.prefix_append _ _, List.prefix_rfl⟩
  | member m =>
    show e.Grows (e.addMember m)
    unfold Element.addMember
    split
    · exact .refl e
    · exact ⟨rfl, List.prefix_rfl, List.prefix_rfl, List.prefix_append _ _⟩
  | risk | control | requirement => exact nomatch isOpen

/-! ## Risk values -/

/-- The risk values that an amendment brings. -/
def values : Amendment → List RiskValueRef
  | .risk _ _ _ _ values => values
  | _ => []

theorem mem_riskValues_apply {a : Amendment} {e : Element} {v : RiskValueRef}
    (h : v ∈ (a.apply e).riskValues) : v ∈ e.riskValues ∨ v ∈ a.values := by
  have sameRisks (same : (a.apply e).risks = e.risks) : v ∈ e.riskValues := by
    unfold Element.riskValues at h ⊢
    rw [same] at h
    exact h
  cases a with
  | link | part | member => exact .inl (sameRisks (grows_apply rfl e).risks_eq)
  | risk scenario domain owner mitigation values =>
    obtain ⟨r, hr, hv⟩ := List.mem_flatMap.mp h
    rcases Element.mem_risks_updateRisk hr with old | ⟨x, rfl, -, origin⟩
    · exact .inl (List.mem_flatMap.mpr ⟨r, old, hv⟩)
    · rcases Risk.mem_addValues.mp hv with before | added
      · rcases origin with old | rfl
        · exact .inl (List.mem_flatMap.mpr ⟨x, old, before⟩)
        · cases before
      · exact .inr added
  | control c =>
    refine .inl (sameRisks ?_)
    show (e.addControlImplementation c).risks = e.risks
    unfold Element.addControlImplementation
    split <;> rfl
  | requirement r =>
    refine .inl (sameRisks ?_)
    show (e.addRequirementImplementation r).risks = e.risks
    unfold Element.addRequirementImplementation
    split <;> rfl

end Amendment

end TemplateCatalog
