import TemplateCatalog.Proofs.Collections
import TemplateCatalog.Proofs.Incarnation.Amendment

/-!
# The relations of an amended element

What a sequence of amendments leaves on an element: everything that was added,
nothing else, and nothing twice.

Results:
1. `Element.shows_amend`: an element shows every amendment that was made.
2. `Element.Explained.amend`: all that an element has was there before or comes
   from an amendment.
3. `Element.Unrepeated.amend`: no relation is repeated.
4. `Element.explained_of_bare`, `Element.unrepeated_of_bare`: elements without
   relations, to start from; `Element.explained_of_holds` for those with some.
-/

namespace TemplateCatalog

namespace Element

/-- The element after amendments in turn. -/
def amend (e : Element) (ms : List Amendment) : Element := ms.foldl (fun e m => m.apply e) e

/-- What every amendment keeps is kept by all of them. -/
theorem amend_induction {P : Element → Prop} {ms : List Amendment}
    (step : ∀ m ∈ ms, ∀ e, P e → P (m.apply e)) {e : Element} (h : P e) : P (e.amend ms) := by
  induction ms generalizing e with
  | nil => exact h
  | cons m rest ih =>
    obtain ⟨head, tail⟩ := List.forall_mem_cons.mp step
    exact ih tail (head e h)

theorem amend_append (e : Element) (ms ms' : List Amendment) :
    e.amend (ms ++ ms') = (e.amend ms).amend ms' :=
  List.foldl_append

end Element

/-! ## Amended risks -/

namespace Risk

/-- A risk after an amendment: the given owner and mitigation take the place of its own. -/
def amended (r : Risk) (owner mitigation : Option ElementId) (values : List RiskValueRef) : Risk :=
  ({ r with
    owner := owner.or r.owner
    mitigation := mitigation.or r.mitigation }).addValues values

variable {r : Risk} {owner mitigation : Option ElementId} {values : List RiskValueRef}

theorem amended_rest : r.amended owner mitigation values =
    { r with
      owner := owner.or r.owner
      mitigation := mitigation.or r.mitigation
      values := (r.amended owner mitigation values).values } :=
  addValues_rest _ _

theorem amended_scenario : (r.amended owner mitigation values).scenario = r.scenario := by
  rw [amended_rest]

theorem mem_amended_values {v : RiskValueRef} :
    v ∈ (r.amended owner mitigation values).values ↔ v ∈ r.values ∨ v ∈ values :=
  mem_addValues

theorem nodup_addValues (h : r.values.Nodup) : (r.addValues values).values.Nodup := by
  induction values generalizing r with
  | nil => exact h
  | cons v rest ih =>
    refine ih ?_
    unfold addValue
    split
    · exact h
    · next new => exact nodup_append_singleton h new

end Risk

namespace Element

/-! ## What is added is there -/

/-- The element has the relation that an amendment brings, be it from this amendment or not. -/
def Shows (e : Element) : Amendment → Prop
  | .link l => ∃ x ∈ e.links, x.linkType = l.linkType ∧ x.target = l.target
  | .part p => p ∈ e.parts
  | .member m => m ∈ e.members
  | .risk scenario _ _ _ values => ∃ x ∈ e.risks, x.scenario = scenario ∧ values ⊆ x.values
  | .control c => ∃ x ∈ e.controlImplementations, x.control = c.control
  | .requirement r => ∃ x ∈ e.requirementImplementations, x.control = r.control

/-- The second element has all relations of the first; its risks may have further values. -/
structure Extends (e e' : Element) : Prop where
  links : e.links ⊆ e'.links
  parts : e.parts ⊆ e'.parts
  members : e.members ⊆ e'.members
  risks : ∀ r ∈ e.risks, ∃ r' ∈ e'.risks, r'.scenario = r.scenario ∧ r.values ⊆ r'.values
  controls : e.controlImplementations ⊆ e'.controlImplementations
  requirements : e.requirementImplementations ⊆ e'.requirementImplementations

theorem Extends.refl (e : Element) : e.Extends e :=
  ⟨.refl _, .refl _, .refl _, fun r hr => ⟨r, hr, rfl, .refl _⟩, .refl _, .refl _⟩

theorem Shows.mono {e e' : Element} {m : Amendment} (h : e.Shows m) (more : e.Extends e') :
    e'.Shows m := by
  cases m with
  | link l =>
    obtain ⟨x, hx, same⟩ := h
    exact ⟨x, more.links hx, same⟩
  | part p => exact more.parts h
  | member m => exact more.members h
  | risk scenario domain owner mitigation values =>
    obtain ⟨x, hx, rfl, sub⟩ := h
    obtain ⟨x', hx', same, sub'⟩ := more.risks x hx
    exact ⟨x', hx', same, List.Subset.trans sub sub'⟩
  | control c =>
    obtain ⟨x, hx, same⟩ := h
    exact ⟨x, more.controls hx, same⟩
  | requirement r =>
    obtain ⟨x, hx, same⟩ := h
    exact ⟨x, more.requirements hx, same⟩

theorem extends_apply (m : Amendment) (e : Element) : e.Extends (m.apply e) := by
  cases m with
  | link l =>
    show e.Extends (e.addLink l)
    unfold addLink
    split
    · exact .refl e
    · exact { Extends.refl e with links := List.subset_append_left _ _ }
  | part p =>
    show e.Extends (e.addPart p)
    unfold addPart
    split
    · exact .refl e
    · exact { Extends.refl e with parts := List.subset_append_left _ _ }
  | member m =>
    show e.Extends (e.addMember m)
    unfold addMember
    split
    · exact .refl e
    · exact { Extends.refl e with members := List.subset_append_left _ _ }
  | risk scenario domain owner mitigation values =>
    show e.Extends (e.updateRisk scenario domain fun r => r.amended owner mitigation values)
    rw [updateRisk_rest]
    refine { Extends.refl e with risks := fun r hr => ?_ }
    rcases e.risks_updateRisk scenario domain fun r => r.amended owner mitigation values with
      ⟨before, x, behind, split, -, updated⟩ | ⟨-, new⟩
    · rw [split] at hr
      show ∃ r' ∈ (e.updateRisk _ _ _).risks, _
      rw [updated]
      rcases List.mem_append.mp hr with first | hr
      · exact ⟨r, List.mem_append_left _ first, rfl, .refl _⟩
      · rcases List.mem_cons.mp hr with rfl | last
        · exact ⟨_, List.mem_append_right _ List.mem_cons_self, Risk.amended_scenario,
            fun v hv => Risk.mem_amended_values.mpr (.inl hv)⟩
        · exact ⟨r, List.mem_append_right _ (List.mem_cons_of_mem _ last), rfl, .refl _⟩
    · show ∃ r' ∈ (e.updateRisk _ _ _).risks, _
      rw [new]
      exact ⟨r, List.mem_append_left _ hr, rfl, .refl _⟩
  | control c =>
    show e.Extends (e.addControlImplementation c)
    unfold addControlImplementation
    split
    · exact .refl e
    · exact { Extends.refl e with controls := List.subset_append_left _ _ }
  | requirement r =>
    show e.Extends (e.addRequirementImplementation r)
    unfold addRequirementImplementation
    split
    · exact .refl e
    · exact { Extends.refl e with requirements := List.subset_append_left _ _ }

theorem shows_apply (m : Amendment) (e : Element) : (m.apply e).Shows m := by
  cases m with
  | link l =>
    show (e.addLink l).Shows (.link l)
    unfold addLink
    split
    · next present =>
      obtain ⟨x, hx, same⟩ := List.any_eq_true.mp present
      rw [Bool.and_eq_true, beq_iff_eq, beq_iff_eq] at same
      exact ⟨x, hx, same⟩
    · exact ⟨l, List.mem_append_right _ List.mem_cons_self, rfl, rfl⟩
  | part p =>
    show (e.addPart p).Shows (.part p)
    unfold addPart
    split
    · next present => exact present
    · exact List.mem_append_right _ List.mem_cons_self
  | member m =>
    show (e.addMember m).Shows (.member m)
    unfold addMember
    split
    · next present => exact present
    · exact List.mem_append_right _ List.mem_cons_self
  | risk scenario domain owner mitigation values =>
    show ∃ x ∈ (e.updateRisk scenario domain fun r => r.amended owner mitigation values).risks, _
    have brought (r : Risk) : values ⊆ (r.amended owner mitigation values).values :=
      fun v hv => Risk.mem_amended_values.mpr (.inr hv)
    rcases e.risks_updateRisk scenario domain fun r => r.amended owner mitigation values with
      ⟨before, x, behind, -, same, updated⟩ | ⟨-, new⟩
    · rw [updated]
      exact ⟨_, List.mem_append_right _ List.mem_cons_self, Risk.amended_scenario.trans same,
        brought x⟩
    · rw [new]
      exact ⟨_, List.mem_append_right _ List.mem_cons_self, Risk.amended_scenario, brought _⟩
  | control c =>
    show (e.addControlImplementation c).Shows (.control c)
    unfold addControlImplementation
    split
    · next present =>
      obtain ⟨x, hx, same⟩ := List.any_eq_true.mp present
      exact ⟨x, hx, beq_iff_eq.mp same⟩
    · exact ⟨c, List.mem_append_right _ List.mem_cons_self, rfl⟩
  | requirement r =>
    show (e.addRequirementImplementation r).Shows (.requirement r)
    unfold addRequirementImplementation
    split
    · next present =>
      obtain ⟨x, hx, same⟩ := List.any_eq_true.mp present
      exact ⟨x, hx, beq_iff_eq.mp same⟩
    · exact ⟨r, List.mem_append_right _ List.mem_cons_self, rfl⟩

theorem shows_amend {m : Amendment} {ms : List Amendment} (h : m ∈ ms) (e : Element) :
    (e.amend ms).Shows m := by
  obtain ⟨before, behind, rfl⟩ := List.append_of_mem h
  rw [amend_append]
  show ((m.apply (e.amend before)).amend behind).Shows m
  exact amend_induction (P := fun x => x.Shows m)
    (fun m' _ x shown => shown.mono (extends_apply m' x)) (shows_apply m _)

end Element

/-! ## Nothing else is there -/

/-- All that a risk holds is said of its scenario. -/
structure Risk.Explained (said : Amendment → Prop) (r : Risk) : Prop where
  scenario : ∃ domain owner mitigation values,
    said (.risk r.scenario domain owner mitigation values)
  owner : ∀ p, r.owner = some p →
    ∃ domain mitigation values, said (.risk r.scenario domain (some p) mitigation values)
  mitigation : ∀ c, r.mitigation = some c →
    ∃ domain owner values, said (.risk r.scenario domain owner (some c) values)
  values : ∀ v ∈ r.values, ∃ domain owner mitigation values,
    said (.risk r.scenario domain owner mitigation values) ∧ v ∈ values

/-- All relations of an element are said. -/
structure Element.Explained (said : Amendment → Prop) (e : Element) : Prop where
  links : ∀ l ∈ e.links, said (.link l)
  parts : ∀ p ∈ e.parts, said (.part p)
  members : ∀ m ∈ e.members, said (.member m)
  risks : ∀ r ∈ e.risks, r.Explained said
  controls : ∀ c ∈ e.controlImplementations, said (.control c)
  requirements : ∀ r ∈ e.requirementImplementations, said (.requirement r)

/-- The element has a relation exactly as an amendment gives it. -/
def Element.Holds (e : Element) : Amendment → Prop
  | .link l => l ∈ e.links
  | .part p => p ∈ e.parts
  | .member m => m ∈ e.members
  | .risk scenario domain owner mitigation values =>
    { scenario, domain, owner, mitigation, values } ∈ e.risks
  | .control c => c ∈ e.controlImplementations
  | .requirement r => r ∈ e.requirementImplementations

section

variable {said : Amendment → Prop}

theorem Element.explained_of_holds {e : Element} (h : ∀ m, e.Holds m → said m) :
    e.Explained said where
  links l hl := h (.link l) hl
  parts p hp := h (.part p) hp
  members m hm := h (.member m) hm
  risks r hr :=
    have given : said (.risk r.scenario r.domain r.owner r.mitigation r.values) := h _ hr
    { scenario := ⟨_, _, _, _, given⟩
      owner := fun _ hp => ⟨_, _, _, hp ▸ given⟩
      mitigation := fun _ hc => ⟨_, _, _, hc ▸ given⟩
      values := fun _ hv => ⟨_, _, _, _, given, hv⟩ }
  controls c hc := h (.control c) hc
  requirements r hr := h (.requirement r) hr

theorem Risk.Explained.amended {r : Risk} (h : r.Explained said) {domain : DomainId}
    {owner mitigation : Option ElementId} {values : List RiskValueRef}
    (given : said (.risk r.scenario domain owner mitigation values)) :
    (r.amended owner mitigation values).Explained said := by
  rw [Risk.amended_rest]
  refine ⟨h.scenario, fun p hp => ?_, fun c hc => ?_, fun v hv => ?_⟩
  · rcases Option.or_eq_some_iff.mp hp with rfl | ⟨-, kept⟩
    · exact ⟨_, _, _, given⟩
    · exact h.owner p kept
  · rcases Option.or_eq_some_iff.mp hc with rfl | ⟨-, kept⟩
    · exact ⟨_, _, _, given⟩
    · exact h.mitigation c kept
  · rcases Risk.mem_amended_values.mp hv with old | added
    · exact h.values v old
    · exact ⟨_, _, _, _, given, added⟩

namespace Element.Explained

variable {e : Element}

theorem apply (h : e.Explained said) {m : Amendment} (given : said m) :
    (m.apply e).Explained said := by
  cases m with
  | link l =>
    show (e.addLink l).Explained said
    unfold Element.addLink
    split
    · exact h
    · refine { h with links := List.forall_mem_append.mpr ⟨h.links, ?_⟩ }
      exact List.forall_mem_singleton.mpr given
  | part p =>
    show (e.addPart p).Explained said
    unfold Element.addPart
    split
    · exact h
    · refine { h with parts := List.forall_mem_append.mpr ⟨h.parts, ?_⟩ }
      exact List.forall_mem_singleton.mpr given
  | member m =>
    show (e.addMember m).Explained said
    unfold Element.addMember
    split
    · exact h
    · refine { h with members := List.forall_mem_append.mpr ⟨h.members, ?_⟩ }
      exact List.forall_mem_singleton.mpr given
  | risk scenario domain owner mitigation values =>
    show (e.updateRisk scenario domain fun r => r.amended owner mitigation values).Explained said
    rw [Element.updateRisk_rest]
    refine { h with risks := fun r hr => ?_ }
    rcases Element.mem_risks_updateRisk hr with old | ⟨x, rfl, same, old | rfl⟩
    · exact h.risks r old
    · rw [← same] at given
      exact (h.risks x old).amended given
    · -- a new risk starts without owner, mitigation and values
      refine Risk.Explained.amended ⟨⟨_, _, _, _, given⟩, ?_, ?_, ?_⟩ given
      · exact fun _ => nofun
      · exact fun _ => nofun
      · exact fun _ => nofun
  | control c =>
    show (e.addControlImplementation c).Explained said
    unfold Element.addControlImplementation
    split
    · exact h
    · refine { h with controls := List.forall_mem_append.mpr ⟨h.controls, ?_⟩ }
      exact List.forall_mem_singleton.mpr given
  | requirement r =>
    show (e.addRequirementImplementation r).Explained said
    unfold Element.addRequirementImplementation
    split
    · exact h
    · refine { h with requirements := List.forall_mem_append.mpr ⟨h.requirements, ?_⟩ }
      exact List.forall_mem_singleton.mpr given

theorem amend (h : e.Explained said) {ms : List Amendment} (given : ∀ m ∈ ms, said m) :
    (e.amend ms).Explained said :=
  Element.amend_induction (fun m hm _ explained => explained.apply (given m hm)) h

end Element.Explained

end

/-! ## Nothing is there twice -/

namespace Element

/-- No relation of the element is repeated, whatever else its repetition may say. -/
structure Unrepeated (e : Element) : Prop where
  links : (e.links.map fun l => (l.linkType, l.target)).Nodup
  parts : e.parts.Nodup
  members : e.members.Nodup
  risks : (e.risks.map (·.scenario)).Nodup
  values : ∀ r ∈ e.risks, r.values.Nodup
  controls : (e.controlImplementations.map (·.control)).Nodup
  requirements : (e.requirementImplementations.map (·.control)).Nodup

variable {e : Element}

theorem Unrepeated.apply (h : e.Unrepeated) (m : Amendment) : (m.apply e).Unrepeated := by
  cases m with
  | link l =>
    show (e.addLink l).Unrepeated
    unfold addLink
    split
    · exact h
    · next new =>
      refine { h with links := nodup_map_append_singleton h.links fun listed => new ?_ }
      obtain ⟨x, hx, same⟩ := List.mem_map.mp listed
      obtain ⟨sameType, sameTarget⟩ := Prod.mk.inj same
      refine List.any_eq_true.mpr ⟨x, hx, ?_⟩
      rw [Bool.and_eq_true, beq_iff_eq, beq_iff_eq]
      exact ⟨sameType, sameTarget⟩
  | part p =>
    show (e.addPart p).Unrepeated
    unfold addPart
    split
    · exact h
    · next new => exact { h with parts := nodup_append_singleton h.parts new }
  | member m =>
    show (e.addMember m).Unrepeated
    unfold addMember
    split
    · exact h
    · next new => exact { h with members := nodup_append_singleton h.members new }
  | risk scenario domain owner mitigation values =>
    show (e.updateRisk scenario domain fun r => r.amended owner mitigation values).Unrepeated
    rw [updateRisk_rest]
    have distinct (r : Risk) (hr : r.values.Nodup) :
        (r.amended owner mitigation values).values.Nodup := Risk.nodup_addValues hr
    refine { h with risks := ?_, values := fun r hr => ?_ }
    · show ((e.updateRisk _ _ _).risks.map (·.scenario)).Nodup
      rcases e.risks_updateRisk scenario domain fun r => r.amended owner mitigation values with
        ⟨before, x, behind, split, -, updated⟩ | ⟨other, new⟩
      · have scenarios := h.risks
        rw [split, List.map_append, List.map_cons] at scenarios
        rw [updated, List.map_append, List.map_cons, Risk.amended_scenario]
        exact scenarios
      · rw [new]
        refine nodup_map_append_singleton h.risks fun listed => ?_
        obtain ⟨r, hr, same⟩ := List.mem_map.mp listed
        exact other r hr (same.trans Risk.amended_scenario)
    · rcases mem_risks_updateRisk hr with old | ⟨x, rfl, -, old | rfl⟩
      · exact h.values r old
      · exact distinct x (h.values x old)
      · exact distinct _ List.nodup_nil
  | control c =>
    show (e.addControlImplementation c).Unrepeated
    unfold addControlImplementation
    split
    · exact h
    · next new =>
      refine { h with controls := nodup_map_append_singleton h.controls fun listed => new ?_ }
      obtain ⟨x, hx, same⟩ := List.mem_map.mp listed
      exact List.any_eq_true.mpr ⟨x, hx, beq_iff_eq.mpr same⟩
  | requirement r =>
    show (e.addRequirementImplementation r).Unrepeated
    unfold addRequirementImplementation
    split
    · exact h
    · next new =>
      refine { h with
        requirements := nodup_map_append_singleton h.requirements fun listed => new ?_ }
      obtain ⟨x, hx, same⟩ := List.mem_map.mp listed
      exact List.any_eq_true.mpr ⟨x, hx, beq_iff_eq.mpr same⟩

theorem Unrepeated.amend (h : e.Unrepeated) (ms : List Amendment) : (e.amend ms).Unrepeated :=
  amend_induction (fun m _ _ unrepeated => unrepeated.apply m) h

/-! ## Where to start -/

theorem explained_of_bare (bare : e.core = e) {said : Amendment → Prop} : e.Explained said := by
  rw [← bare]
  exact ⟨fun _ => nofun, fun _ => nofun, fun _ => nofun, fun _ => nofun, fun _ => nofun,
    fun _ => nofun⟩

theorem unrepeated_of_bare (bare : e.core = e) : e.Unrepeated := by
  rw [← bare]
  exact ⟨List.nodup_nil, List.nodup_nil, List.nodup_nil, List.nodup_nil, fun _ => nofun,
    List.nodup_nil, List.nodup_nil⟩

end Element

end TemplateCatalog
