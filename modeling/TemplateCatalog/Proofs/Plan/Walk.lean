import Mathlib.Data.List.Nodup
import TemplateCatalog.Plan.Walk
import TemplateCatalog.Proofs.Collections

/-!
# What a walk plans

All planning is of one kind: items of the namespace are put behind those that
are planned already, each once (`Walk.Appends`). What is left gets less by that,
and a step that leaves as much as before has planned nothing.

An item is settled if it is planned, or not an item of the namespace at all. In
the end the copies and the expansions of every planned item are settled. On the
way there they are settled or still ahead: in the next level while copies are
planned, behind an item of the frontier while expansions are.

Results:
1. `plannedItems_appends`: requested items with their copies come first, flagged,
   and then the others; nothing is planned twice.
2. `planEach_settles`, `plannedItems_settles`: a walk leaves nothing out.
3. `planEach_sound`, `plannedItems_sound`: a walk plans nothing but what it is
   led to.
4. `plannedItems_of_no_leads`: a walk that is led nowhere plans the requested items.
-/

namespace TemplateCatalog

namespace TemplateGraph

variable {g : TemplateGraph} {nspace : ItemNamespace} {id : ItemId} {item : TemplateItem}

theorem get?_eq_some_iff : g.get? id = some item ↔ item ∈ g.items ∧ item.id = id := by
  constructor
  · intro h
    exact ⟨List.mem_of_find?_eq_some h, by simpa using List.find?_some h⟩
  · rintro ⟨hitem, rfl⟩
    cases h : g.get? item.id with
    | none => exact absurd (beq_iff_eq.mpr rfl) (List.find?_eq_none.mp h item hitem)
    | some other =>
      have same : other.id = item.id := by simpa using List.find?_some h
      rw [List.inj_on_of_nodup_map g.distinct_ids (List.mem_of_find?_eq_some h) hitem same]

theorem getIn?_eq_some_iff :
    g.getIn? nspace id = some item ↔ g.get? id = some item ∧ item.nspace = nspace := by
  simp [getIn?]

theorem id_of_getIn? (found : g.getIn? nspace id = some item) : item.id = id :=
  (get?_eq_some_iff.mp (getIn?_eq_some_iff.mp found).1).2

end TemplateGraph

namespace PlannedItems

theorem holds_iff {planned : PlannedItems} {id : ItemId} :
    planned.holds id = true ↔ id ∈ planned.map (·.1) := by
  simp [holds]

theorem ids_append (planned : PlannedItems) (new : List ItemId) (requested : Bool) :
    (planned ++ new.map (·, requested)).map (·.1) = planned.map (·.1) ++ new := by
  simp [Function.comp_def]

end PlannedItems

namespace Walk

variable {w : Walk} {requested : Bool} {planned planned' planned'' : PlannedItems}
  {level frontier ids : List ItemId} {id : ItemId}

theorem mem_left {item : TemplateItem} :
    item ∈ w.left planned ↔
      item ∈ w.graph.items ∧ item.nspace = w.nspace ∧ item.id ∉ planned.map (·.1) := by
  simp only [left, List.mem_filter, Bool.and_eq_true, decide_eq_true_eq, Bool.not_eq_true',
    ← PlannedItems.holds_iff, Bool.not_eq_true]

theorem mem_newItems : id ∈ w.newItems planned level ↔
    id ∈ level ∧ (w.item? id).isSome = true ∧ id ∉ planned.map (·.1) := by
  rw [newItems, mem_distinct, List.mem_filter, Bool.and_eq_true, Bool.not_eq_true',
    ← PlannedItems.holds_iff, Bool.not_eq_true]

/-! ## Planning appends -/

/-- Behind planned items stand further items of the namespace, each once, all with one flag. -/
def Appends (w : Walk) (requested : Bool) (planned planned' : PlannedItems) : Prop :=
  ∃ new : List ItemId, planned' = planned ++ new.map (·, requested) ∧ new.Nodup ∧
    ∀ id ∈ new, (w.item? id).isSome = true ∧ id ∉ planned.map (·.1)

namespace Appends

theorem refl : w.Appends requested planned planned :=
  ⟨[], (List.append_nil _).symm, List.nodup_nil, fun _ => nofun⟩

theorem trans (h : w.Appends requested planned planned')
    (h' : w.Appends requested planned' planned'') : w.Appends requested planned planned'' := by
  obtain ⟨new, rfl, nodup, fresh⟩ := h
  obtain ⟨new', rfl, nodup', fresh'⟩ := h'
  rw [PlannedItems.ids_append] at fresh'
  refine ⟨new ++ new', by simp, List.nodup_append.mpr ⟨nodup, nodup', ?_⟩,
    List.forall_mem_append.mpr ⟨fresh, ?_⟩⟩
  · intro a ha b hb same
    exact (fresh' b hb).2 (List.mem_append_right _ (same ▸ ha))
  · intro id hid
    exact ⟨(fresh' id hid).1, fun old => (fresh' id hid).2 (List.mem_append_left _ old)⟩

theorem mono (h : w.Appends requested planned planned') (hid : id ∈ planned.map (·.1)) :
    id ∈ planned'.map (·.1) := by
  obtain ⟨new, rfl, -⟩ := h
  rw [PlannedItems.ids_append]
  exact List.mem_append_left _ hid

theorem nodup (h : w.Appends requested planned planned') (distinct : (planned.map (·.1)).Nodup) :
    (planned'.map (·.1)).Nodup := by
  obtain ⟨new, rfl, nodup, fresh⟩ := h
  rw [PlannedItems.ids_append]
  exact List.nodup_append.mpr ⟨distinct, nodup, fun a ha b hb same => (fresh b hb).2 (same ▸ ha)⟩

/-- Planning that leaves as much as before has planned nothing. -/
theorem eq_of_left (h : w.Appends requested planned planned')
    (stuck : ¬ (w.left planned').length < (w.left planned).length) : planned' = planned := by
  have sub : (w.left planned').Sublist (w.left planned) := by
    refine List.monotone_filter_right _ fun item kept => ?_
    rw [Bool.and_eq_true, Bool.not_eq_true', ← Bool.not_eq_true, PlannedItems.holds_iff] at kept ⊢
    exact ⟨kept.1, fun old => kept.2 (h.mono old)⟩
  have same := sub.eq_of_length (Nat.le_antisymm sub.length_le (Nat.not_lt.mp stuck))
  obtain ⟨new, rfl, -, fresh⟩ := h
  cases new with
  | nil => exact List.append_nil _
  | cons id rest =>
    -- the first new item would be left before and not after
    obtain ⟨exists_item, notPlanned⟩ := fresh id List.mem_cons_self
    obtain ⟨item, found⟩ := Option.isSome_iff_exists.mp exists_item
    obtain ⟨got, inNamespace⟩ := TemplateGraph.getIn?_eq_some_iff.mp found
    obtain ⟨hitem, rfl⟩ := TemplateGraph.get?_eq_some_iff.mp got
    have before : item ∈ w.left planned := mem_left.mpr ⟨hitem, inNamespace, notPlanned⟩
    rw [← same] at before
    exact absurd (by simp) (mem_left.mp before).2.2

end Appends

theorem planLevel_appends : w.Appends requested planned (w.planLevel requested planned level) :=
  ⟨w.newItems planned level, rfl, distinct_nodup _, fun _ hid => (mem_newItems.mp hid).2⟩

theorem planWithCopies_appends :
    w.Appends requested planned (w.planWithCopies requested planned level) := by
  fun_induction w.planWithCopies requested planned level with
  | case1 planned level _ ih => exact planLevel_appends.trans ih
  | case2 planned level _ => exact planLevel_appends

/-- Plans items with their copies, one after the other. -/
def planEach (w : Walk) (requested : Bool) (planned : PlannedItems) (ids : List ItemId) :
    PlannedItems :=
  ids.foldl (fun planned id => w.planWithCopies requested planned [id]) planned

theorem planEach_appends : w.Appends requested planned (w.planEach requested planned ids) := by
  induction ids generalizing planned with
  | nil => exact .refl
  | cons id rest ih => exact planWithCopies_appends.trans ih

theorem planExpansions_appends : w.Appends false planned (w.planExpansions planned frontier) :=
  planEach_appends

theorem expand_appends : w.Appends false planned (w.expand planned frontier) := by
  fun_induction w.expand planned frontier with
  | case1 planned frontier _ ih => exact planExpansions_appends.trans ih
  | case2 planned frontier _ => exact planExpansions_appends

theorem plannedItems_appends (ids : List ItemId) :
    w.Appends true [] (w.planEach true [] ids) ∧
      w.Appends false (w.planEach true [] ids) (w.plannedItems ids) :=
  ⟨planEach_appends, expand_appends⟩

/-! ## Nothing is left out -/

/-- An item is planned unless the namespace lacks it. -/
def Settled (w : Walk) (planned : PlannedItems) (id : ItemId) : Prop :=
  (w.item? id).isSome = true → id ∈ planned.map (·.1)

theorem Settled.mono (h : w.Settled planned id) (more : w.Appends requested planned planned') :
    w.Settled planned' id :=
  fun exists_item => more.mono (h exists_item)

theorem settled_planLevel (h : id ∈ level) : w.Settled (w.planLevel requested planned level) id := by
  intro exists_item
  by_cases old : id ∈ planned.map (·.1)
  · exact planLevel_appends.mono old
  · rw [planLevel, PlannedItems.ids_append]
    exact List.mem_append_right _ (mem_newItems.mpr ⟨h, exists_item, old⟩)

/-- The copies of every planned item are settled. -/
def CopiesSettled (w : Walk) (planned : PlannedItems) : Prop :=
  ∀ id ∈ planned.map (·.1), ∀ c ∈ w.copies id, w.Settled planned c

theorem planWithCopies_settles (requested : Bool) (level : List ItemId)
    (ahead : ∀ id ∈ planned.map (·.1), ∀ c ∈ w.copies id, w.Settled planned c ∨ c ∈ level) :
    w.CopiesSettled (w.planWithCopies requested planned level) ∧
      ∀ id ∈ level, w.Settled (w.planWithCopies requested planned level) id := by
  fun_induction w.planWithCopies requested planned level with
  | case1 planned level _ ih =>
    have ahead' : ∀ id ∈ (w.planLevel requested planned level).map (·.1), ∀ c ∈ w.copies id,
        w.Settled (w.planLevel requested planned level) c ∨ c ∈ w.nextLevel planned level := by
      intro id hid c hc
      rw [planLevel, PlannedItems.ids_append, List.mem_append] at hid
      rcases hid with old | new
      · refine .inl ?_
        rcases ahead id old c hc with settled | next
        · exact settled.mono planLevel_appends
        · exact settled_planLevel next
      · exact .inr (List.mem_flatMap.mpr ⟨id, new, hc⟩)
    exact ⟨(ih ahead').1, fun id hid => (settled_planLevel hid).mono planWithCopies_appends⟩
  | case2 planned level stuck =>
    have settled (id : ItemId) (hid : id ∈ level) :
        w.Settled (w.planLevel requested planned level) id := settled_planLevel hid
    rw [planLevel_appends.eq_of_left stuck] at settled ⊢
    exact ⟨fun id hid c hc => (ahead id hid c hc).elim (fun h => h) (settled c), settled⟩

theorem planEach_settles (requested : Bool) (ids : List ItemId) (h : w.CopiesSettled planned) :
    w.CopiesSettled (w.planEach requested planned ids) ∧
      ∀ id ∈ ids, w.Settled (w.planEach requested planned ids) id := by
  induction ids generalizing planned with
  | nil => exact ⟨h, fun _ => nofun⟩
  | cons id rest ih =>
    obtain ⟨copies, settled⟩ := planWithCopies_settles requested [id]
      fun id hid c hc => .inl (h id hid c hc)
    obtain ⟨copies', settled'⟩ := ih copies
    exact ⟨copies', List.forall_mem_cons.mpr
      ⟨(settled id List.mem_cons_self).mono planEach_appends, settled'⟩⟩

theorem planExpansions_settles (copies : w.CopiesSettled planned)
    (ahead : ∀ id ∈ planned.map (·.1),
      (∀ t ∈ w.expansions id, w.Settled planned t) ∨ id ∈ frontier) :
    w.CopiesSettled (w.planExpansions planned frontier) ∧
      ∀ id ∈ planned.map (·.1), ∀ t ∈ w.expansions id,
        w.Settled (w.planExpansions planned frontier) t := by
  obtain ⟨copies', settled⟩ := planEach_settles false (frontier.flatMap w.expansions) copies
  refine ⟨copies', fun id hid t ht => ?_⟩
  rcases ahead id hid with old | front
  · exact (old t ht).mono planExpansions_appends
  · exact settled t (List.mem_flatMap.mpr ⟨id, front, ht⟩)

theorem expand_settles (frontier : List ItemId) (copies : w.CopiesSettled planned)
    (ahead : ∀ id ∈ planned.map (·.1),
      (∀ t ∈ w.expansions id, w.Settled planned t) ∨ id ∈ frontier) :
    w.CopiesSettled (w.expand planned frontier) ∧
      ∀ id ∈ (w.expand planned frontier).map (·.1), ∀ t ∈ w.expansions id,
        w.Settled (w.expand planned frontier) t := by
  fun_induction w.expand planned frontier with
  | case1 planned frontier _ ih =>
    obtain ⟨copies', settled⟩ := planExpansions_settles copies ahead
    refine ih copies' fun id hid => ?_
    obtain ⟨new, same, -⟩ : w.Appends false planned (w.planExpansions planned frontier) :=
      planExpansions_appends
    by_cases old : id ∈ planned.map (·.1)
    · exact .inl (settled id old)
    · refine .inr ?_
      rw [same, List.map_append, List.mem_append] at hid
      rw [plannedSince, same, List.drop_left]
      exact hid.resolve_left old
  | case2 planned frontier stuck =>
    have settled := planExpansions_settles copies ahead
    rw [planExpansions_appends.eq_of_left stuck] at settled ⊢
    exact settled

theorem plannedItems_settles (ids : List ItemId) :
    (∀ id ∈ ids, w.Settled (w.plannedItems ids) id) ∧
      ∀ id ∈ (w.plannedItems ids).map (·.1), ∀ t ∈ w.copies id ++ w.expansions id,
        w.Settled (w.plannedItems ids) t := by
  have start : w.CopiesSettled [] := fun _ => nofun
  obtain ⟨copies, settled⟩ := planEach_settles true ids start
  obtain ⟨copies', expansions⟩ := expand_settles ((w.planEach true [] ids).map (·.1)) copies
    fun id hid => .inr hid
  refine ⟨fun id hid => (settled id hid).mono expand_appends, fun id hid => ?_⟩
  exact List.forall_mem_append.mpr ⟨copies' id hid, expansions id hid⟩

/-! ## Nothing else is planned -/

section

variable {P : ItemId → Prop}

theorem planLevel_sound (before : ∀ id ∈ planned.map (·.1), P id)
    (start : ∀ id ∈ level, (w.item? id).isSome = true → P id) :
    ∀ id ∈ (w.planLevel requested planned level).map (·.1), P id := by
  intro id hid
  rw [planLevel, PlannedItems.ids_append, List.mem_append] at hid
  rcases hid with old | new
  · exact before id old
  · obtain ⟨hlevel, exists_item, -⟩ := mem_newItems.mp new
    exact start id hlevel exists_item

theorem planWithCopies_sound (before : ∀ id ∈ planned.map (·.1), P id)
    (start : ∀ id ∈ level, (w.item? id).isSome = true → P id)
    (step : ∀ id, P id → ∀ c ∈ w.copies id, (w.item? c).isSome = true → P c) :
    ∀ id ∈ (w.planWithCopies requested planned level).map (·.1), P id := by
  fun_induction w.planWithCopies requested planned level with
  | case1 planned level _ ih =>
    refine ih (planLevel_sound before start) fun c hc exists_item => ?_
    obtain ⟨n, hn, hc⟩ := List.mem_flatMap.mp hc
    obtain ⟨hlevel, exists_origin, -⟩ := mem_newItems.mp hn
    exact step n (start n hlevel exists_origin) c hc exists_item
  | case2 planned level _ => exact planLevel_sound before start

theorem planEach_sound (before : ∀ id ∈ planned.map (·.1), P id)
    (start : ∀ id ∈ ids, (w.item? id).isSome = true → P id)
    (step : ∀ id, P id → ∀ c ∈ w.copies id, (w.item? c).isSome = true → P c) :
    ∀ id ∈ (w.planEach requested planned ids).map (·.1), P id := by
  induction ids generalizing planned with
  | nil => exact before
  | cons id rest ih =>
    obtain ⟨head, tail⟩ := List.forall_mem_cons.mp start
    exact ih (planWithCopies_sound before (List.forall_mem_singleton.mpr head) step) tail

theorem planExpansions_sound (before : ∀ id ∈ planned.map (·.1), P id)
    (known : ∀ id ∈ frontier, P id)
    (copy : ∀ id, P id → ∀ c ∈ w.copies id, (w.item? c).isSome = true → P c)
    (expansion : ∀ id, P id → ∀ t ∈ w.expansions id, (w.item? t).isSome = true → P t) :
    ∀ id ∈ (w.planExpansions planned frontier).map (·.1), P id := by
  refine planEach_sound before (fun t ht => ?_) copy
  obtain ⟨id, hid, ht⟩ := List.mem_flatMap.mp ht
  exact expansion id (known id hid) t ht

theorem expand_sound (before : ∀ id ∈ planned.map (·.1), P id) (known : ∀ id ∈ frontier, P id)
    (copy : ∀ id, P id → ∀ c ∈ w.copies id, (w.item? c).isSome = true → P c)
    (expansion : ∀ id, P id → ∀ t ∈ w.expansions id, (w.item? t).isSome = true → P t) :
    ∀ id ∈ (w.expand planned frontier).map (·.1), P id := by
  fun_induction w.expand planned frontier with
  | case1 planned frontier _ ih =>
    have planned' := planExpansions_sound before known copy expansion
    refine ih planned' fun id hid => planned' id ?_
    obtain ⟨p, hp, rfl⟩ := List.mem_map.mp hid
    exact List.mem_map_of_mem (List.mem_of_mem_drop hp)
  | case2 planned frontier _ => exact planExpansions_sound before known copy expansion

theorem plannedItems_sound (start : ∀ id ∈ ids, (w.item? id).isSome = true → P id)
    (step : ∀ id, P id → ∀ t ∈ w.copies id ++ w.expansions id, (w.item? t).isSome = true → P t) :
    ∀ id ∈ (w.plannedItems ids).map (·.1), P id := by
  have copy (id : ItemId) (h : P id) (c : ItemId) (hc : c ∈ w.copies id) :=
    step id h c (List.mem_append_left _ hc)
  have expansion (id : ItemId) (h : P id) (t : ItemId) (ht : t ∈ w.expansions id) :=
    step id h t (List.mem_append_right _ ht)
  have first : ∀ id ∈ (w.planEach true [] ids).map (·.1), P id :=
    planEach_sound (fun _ => nofun) start copy
  exact expand_sound first first copy expansion

end

/-! ## Walks that are led nowhere -/

theorem planWithCopies_of_no_copies (h : ∀ id ∈ level, w.copies id = []) :
    w.planWithCopies requested planned level = w.planLevel requested planned level := by
  have unchanged (planned : PlannedItems) : w.planLevel requested planned [] = planned :=
    List.append_nil planned
  have stays (planned : PlannedItems) : w.planWithCopies requested planned [] = planned := by
    rw [planWithCopies, unchanged, if_neg (Nat.lt_irrefl _)]
  have next : w.nextLevel planned level = [] :=
    List.flatMap_eq_nil_iff.mpr fun id new => h id (mem_newItems.mp new).1
  rw [planWithCopies, next, stays, ite_self]

theorem planLevel_singleton (xs : DistinctList ItemId) (exists_item : (w.item? id).isSome = true) :
    w.planLevel requested (xs.toList.map (·, requested)) [id] =
      (xs.push id).toList.map (·, requested) := by
  have listed : PlannedItems.holds (xs.toList.map (·, requested)) id = decide (id ∈ xs.toList) := by
    rw [Bool.eq_iff_iff, PlannedItems.holds_iff, List.map_map, decide_eq_true_iff]
    simp [Function.comp_def]
  have new : w.newItems (xs.toList.map (·, requested)) [id] =
      if id ∈ xs.toList then [] else [id] := by
    unfold newItems
    by_cases old : id ∈ xs.toList
    · simp only [List.filter_cons, listed, decide_eq_true old, Bool.not_true, Bool.and_false,
        if_pos old]
      rfl
    · simp only [List.filter_cons, listed, decide_eq_false old, exists_item, if_neg old]
      rfl
  rw [planLevel, new, DistinctList.toList_push]
  split
  · exact List.append_nil _
  · exact List.map_append.symm

/-- Items that have no copies are planned in the order in which they are named first. -/
theorem planEach_of_no_copies (xs : DistinctList ItemId)
    (h : ∀ id ∈ ids, (w.item? id).isSome = true ∧ w.copies id = []) :
    w.planEach requested (xs.toList.map (·, requested)) ids =
      (xs.append ids).toList.map (·, requested) := by
  induction ids generalizing xs with
  | nil => rfl
  | cons id rest ih =>
    obtain ⟨⟨exists_item, copies⟩, tail⟩ := List.forall_mem_cons.mp h
    have step : w.planWithCopies requested (xs.toList.map (·, requested)) [id] =
        (xs.push id).toList.map (·, requested) := by
      rw [planWithCopies_of_no_copies (List.forall_mem_singleton.mpr copies)]
      exact planLevel_singleton xs exists_item
    show w.planEach requested (w.planWithCopies requested _ [id]) rest = _
    rw [step]
    exact ih (xs.push id) tail

theorem expand_of_no_expansions (h : ∀ id ∈ frontier, w.expansions id = []) :
    w.expand planned frontier = planned := by
  have unchanged : w.planExpansions planned frontier = planned := by
    rw [planExpansions, List.flatMap_eq_nil_iff.mpr h]
    rfl
  rw [expand, unchanged, if_neg (Nat.lt_irrefl _)]

/-- If the requested items lead nowhere, they are planned and nothing else is. -/
theorem plannedItems_of_no_leads (exist : ∀ id ∈ ids, (w.item? id).isSome = true)
    (nowhere : ∀ id ∈ ids, w.copies id = [] ∧ w.expansions id = []) :
    w.plannedItems ids = (distinct ids).map (·, true) := by
  have each : w.planEach true [] ids = (distinct ids).map (·, true) :=
    planEach_of_no_copies DistinctList.empty fun id hid => ⟨exist id hid, (nowhere id hid).1⟩
  show w.expand (w.planEach true [] ids) ((w.planEach true [] ids).map (·.1)) = _
  rw [each]
  refine expand_of_no_expansions fun id hid => ?_
  obtain ⟨_, planned, rfl⟩ := List.mem_map.mp hid
  obtain ⟨id, requested, rfl⟩ := List.mem_map.mp planned
  exact (nowhere id (mem_distinct.mp requested)).2

end Walk

end TemplateCatalog
