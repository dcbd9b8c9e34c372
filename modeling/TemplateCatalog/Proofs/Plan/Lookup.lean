import TemplateCatalog.Plan.Resolve
import TemplateCatalog.Proofs.Collections

/-!
# What look-ups find

A resolution asks the repository for incarnations bit by bit, and for no catalog
item twice. `Incarnations.Mirrors` says that what was asked for is known as the
unit holds it, in the order in which it is stored. So the answer for an item that
was asked for is the answer over all elements of the unit.

Results:
1. `existingIncarnation?_eq`: the incarnation of an item is the first element that
   the policy accepts.
2. `Walk.lookUp_mirrors`: a look-up on a plain store succeeds, keeps the mirror,
   and covers all items that are planned or referred to.
3. `Incarnations.Mirrors.existing?_eq`: what is known of an item that was asked
   for is all there is.
-/

namespace TemplateCatalog

/-! ## Accepted elements -/

/-- The element was made from the catalog item that an item applies, and in the same version if
the policy asks for that. -/
def LookupPolicy.Accepts (p : LookupPolicy) (item : TemplateItem) (e : Element) : Prop :=
  ∃ a, e.appliedItem = some a ∧ item.applied? = some a.item ∧
    (p = .sameVersion → a.version = item.version)

instance (p : LookupPolicy) (item : TemplateItem) : DecidablePred (p.Accepts item) := fun e =>
  match h : e.appliedItem with
  | none => isFalse fun ⟨_, tagged, _⟩ => nomatch h.symm.trans tagged
  | some a => decidable_of_iff
      (item.applied? = some a.item ∧ (p = .sameVersion → a.version = item.version))
      ⟨fun accepted => ⟨a, h, accepted⟩, fun ⟨_, tagged, accepted⟩ =>
        Option.some.inj (h.symm.trans tagged) ▸ accepted⟩

theorem LookupPolicy.ne_never_of_appliesTo {p : LookupPolicy} {requested : Bool}
    (h : p.appliesTo requested = true) : p ≠ .never := by
  rintro rfl
  cases h

theorem LookupPolicy.Accepts.isIncarnationOf {p : LookupPolicy} {item : TemplateItem} {e : Element}
    (h : p.Accepts item e) {applied : ItemId} (applies : item.applied? = some applied) :
    e.isIncarnationOf applied = true := by
  obtain ⟨a, tagged, applies', -⟩ := h
  cases applies.symm.trans applies'
  simp [Element.isIncarnationOf, tagged]

section

variable {found held : List Element} {p : LookupPolicy} {item : TemplateItem} {id : ElementId}

theorem existingIncarnation?_eq :
    existingIncarnation? found p item = (found.find? fun e => p.Accepts item e).map (·.id) := by
  unfold existingIncarnation?
  cases applies : item.applied? with
  | none =>
    have none_accepted : found.find? (fun e => p.Accepts item e) = none := by
      refine List.find?_eq_none.mpr fun e _ accepted => ?_
      obtain ⟨a, -, applies', -⟩ := of_decide_eq_true accepted
      cases applies.symm.trans applies'
    rw [none_accepted]
    rfl
  | some applied =>
    have same : (fun e : Element => e.appliedItem.any fun a =>
        a.item == applied && (decide (p ≠ .sameVersion) || a.version == item.version)) =
          fun e => decide (p.Accepts item e) := by
      funext e
      rw [Bool.eq_iff_iff, decide_eq_true_eq]
      simp only [LookupPolicy.Accepts, applies, Option.any_eq_true, Bool.and_eq_true, beq_iff_eq,
        Bool.or_eq_true, decide_eq_true_eq, Option.some.injEq, Decidable.imp_iff_not_or]
      exact exists_congr fun a => and_congr_right fun _ => and_congr_left fun _ => eq_comm
    simp only [Option.bind_eq_bind, Option.bind_some, same]
    cases found.find? fun e => decide (p.Accepts item e) with
    | none => rfl
    | some e => rfl

theorem existingIncarnation?_eq_some (h : existingIncarnation? found p item = some id) :
    ∃ e ∈ found, e.id = id ∧ p.Accepts item e := by
  rw [existingIncarnation?_eq, Option.map_eq_some_iff] at h
  obtain ⟨e, first, rfl⟩ := h
  exact ⟨e, List.mem_of_find?_eq_some first, rfl, by simpa using List.find?_some first⟩

theorem existingIncarnation?_eq_none_iff :
    existingIncarnation? found p item = none ↔ ∀ e ∈ found, ¬ p.Accepts item e := by
  rw [existingIncarnation?_eq, Option.map_eq_none_iff, List.find?_eq_none]
  simp

/-- Only the incarnations of what the item applies matter. -/
theorem existingIncarnation?_congr
    (h : ∀ applied, item.applied? = some applied →
      found.filter (·.isIncarnationOf applied) = held.filter (·.isIncarnationOf applied)) :
    existingIncarnation? found p item = existingIncarnation? held p item := by
  cases applies : item.applied? with
  | none => simp [existingIncarnation?, applies]
  | some applied =>
    have narrowed (es : List Element) : es.find? (fun e => p.Accepts item e) =
        (es.filter (·.isIncarnationOf applied)).find? fun e => p.Accepts item e := by
      rw [List.find?_filter]
      congr 1
      funext e
      refine decide_eq_decide.mpr ⟨fun accepted => ?_, fun both => by simpa using both.2⟩
      exact ⟨accepted.isIncarnationOf applies, decide_eq_true accepted⟩
    rw [existingIncarnation?_eq, existingIncarnation?_eq, narrowed found, narrowed held,
      h applied applies]

end

/-! ## Asking -/

/-- What was asked for is known as it is held, in the same order, and nothing else is known. -/
structure Incarnations.Mirrors (known : Incarnations) (held : List Element) : Prop where
  found : ∀ applied ∈ known.queried,
    known.found.filter (·.isIncarnationOf applied) = held.filter (·.isIncarnationOf applied)
  queried : ∀ e ∈ known.found, ∀ a, e.appliedItem = some a → a.item ∈ known.queried

namespace Incarnations.Mirrors

variable {known : Incarnations} {held : List Element}

theorem start : ({} : Incarnations).Mirrors held :=
  ⟨fun _ => nofun, fun _ => nofun⟩

theorem ask (h : known.Mirrors held) {ids : List ItemId} (fresh : ∀ id ∈ ids, id ∉ known.queried) :
    Mirrors ⟨known.queried ++ ids,
      known.found ++ held.filter fun e => e.appliedItem.any fun a => ids.contains a.item⟩ held := by
  refine ⟨?_, List.forall_mem_append.mpr ⟨?_, ?_⟩⟩
  · intro applied hid
    rw [List.filter_append, List.filter_filter]
    rcases List.mem_append.mp hid with old | new
    · have no_more : held.filter (fun e => e.isIncarnationOf applied &&
          e.appliedItem.any fun a => ids.contains a.item) = [] := by
        refine List.filter_eq_nil_iff.mpr fun e _ both => ?_
        simp only [Element.isIncarnationOf, Bool.and_eq_true, Option.any_eq_true, beq_iff_eq,
          List.contains_iff_mem] at both
        obtain ⟨⟨a, tagged, rfl⟩, b, tagged', asked⟩ := both
        cases tagged.symm.trans tagged'
        exact fresh a.item asked old
      rw [no_more, List.append_nil]
      exact h.found applied old
    · have none_yet : known.found.filter (·.isIncarnationOf applied) = [] := by
        refine List.filter_eq_nil_iff.mpr fun e he made => ?_
        simp only [Element.isIncarnationOf, Option.any_eq_true, beq_iff_eq] at made
        obtain ⟨a, tagged, rfl⟩ := made
        exact fresh a.item new (h.queried e he a tagged)
      rw [none_yet, List.nil_append]
      refine List.filter_congr fun e _ => ?_
      rw [Bool.and_eq_left_iff_imp]
      simp only [Element.isIncarnationOf, Option.any_eq_true, beq_iff_eq, List.contains_iff_mem]
      rintro ⟨a, tagged, rfl⟩
      exact ⟨a, tagged, new⟩
  · exact fun e he a tagged => List.mem_append_left _ (h.queried e he a tagged)
  · intro e he a tagged
    have asked := (List.mem_filter.mp he).2
    simp only [tagged, Option.any_some, List.contains_iff_mem] at asked
    exact List.mem_append_right _ asked

theorem existing?_eq (h : known.Mirrors held) {p : LookupPolicy} {item : TemplateItem}
    (asked : ∀ applied, item.applied? = some applied → applied ∈ known.queried) :
    existingIncarnation? known.found p item = existingIncarnation? held p item :=
  existingIncarnation?_congr fun applied applies => h.found applied (asked applied applies)

end Incarnations.Mirrors

namespace Walk

variable {w : Walk} {planned : PlannedItems} {known : Incarnations}

theorem mem_candidates {applied : ItemId} : applied ∈ w.candidates planned known ↔
    (∃ id ∈ planned.map (·.1) ++ w.unplannedTargets planned, ∃ item, w.graph.get? id = some item ∧
      item.applied? = some applied) ∧ applied ∉ known.queried := by
  rw [candidates, mem_distinct, List.mem_filter, List.mem_filterMap]
  simp only [Option.bind_eq_some_iff, Bool.not_eq_true', ← Bool.not_eq_true, List.contains_iff_mem]

/-- A look-up that succeeds in spite of an outage finds what the store holds. -/
theorem lookUp_connect {c : Connection} {request : IncarnationRequest} {known' : Incarnations}
    (h : w.lookUp c request planned known = .ok known') :
    w.lookUp c.store.connect request planned known = .ok known' := by
  unfold lookUp at h ⊢
  by_cases never : w.options.lookup = .never
  · rwa [if_pos never] at h ⊢
  · rw [if_neg never] at h ⊢
    dsimp only at h ⊢
    split
    · next none => rwa [if_pos none] at h
    · next some =>
      rw [if_neg some] at h
      obtain ⟨found, answered, result⟩ := except_bind_eq_ok.mp h
      unfold Connection.findIncarnations Connection.answer at answered
      split at answered
      · cases answered
      · cases answered
        exact result

/-- What planned items apply, and what the unplanned items that they refer to apply, was asked. -/
def Asked (w : Walk) (planned : PlannedItems) (known : Incarnations) : Prop :=
  ∀ id ∈ planned.map (·.1) ++ w.unplannedTargets planned, ∀ item, w.graph.get? id = some item →
    ∀ applied, item.applied? = some applied → applied ∈ known.queried

theorem lookUp_mirrors {s : Store} {request : IncarnationRequest} (planned : PlannedItems)
    (h : known.Mirrors (s.elementsOf request.unit request.domain)) :
    ∃ known', w.lookUp s.connect request planned known = .ok known' ∧
      known'.Mirrors (s.elementsOf request.unit request.domain) ∧
      (w.options.lookup ≠ .never → w.Asked planned known') := by
  unfold lookUp
  split
  · next never => exact ⟨known, rfl, h, fun other => absurd never other⟩
  · next looksUp =>
    have asked (queried : List ItemId)
        (more : ∀ id, id ∈ known.queried ∨ id ∈ w.candidates planned known → id ∈ queried)
        (found : List Element) : w.Asked planned ⟨queried, found⟩ := by
      intro id hid item got applied applies
      by_cases old : applied ∈ known.queried
      · exact more applied (.inl old)
      · exact more applied (.inr (mem_candidates.mpr ⟨⟨id, hid, item, got, applies⟩, old⟩))
    cases none : w.candidates planned known with
    | nil =>
      refine ⟨known, rfl, h, fun _ => asked _ (fun id hid => ?_) _⟩
      rw [none] at hid
      exact hid.resolve_right List.not_mem_nil
    | cons first rest =>
      rw [← none]
      refine ⟨_, by rw [none]; rfl, h.ask fun id hid => (mem_candidates.mp hid).2, ?_⟩
      exact fun _ => asked _ (fun id hid => List.mem_append.mpr hid) _

end Walk

end TemplateCatalog
