import TemplateCatalog.Proofs.Plan.Walk

/-!
# Closures of requested items

`Closure` is the least set of items that holds the requested ones and all that
its members lead to; items that are cut lead nowhere. What an item leads to is a
parameter: `ResolveOptions.Copies` for the items that are copied along, and
`ResolveOptions.Follows` for all that a mode follows.

Results:
1. `mem_plannedItems_iff`: a walk that cuts the reused items plans the closure
   under what its mode follows.
2. `flag_plannedItems_iff`: it flags the closure under copies.
-/

namespace TemplateCatalog

namespace ResolveOptions

/-- An admitted reference copies its target along with the origin. -/
def Copies (o : ResolveOptions) (r : TailoringReference) (id : ItemId) : Prop :=
  o.filter.admits r.type = true ∧ r.type.isCopy = true ∧ id = r.target

/-- An admitted reference leads to an item: in closure mode to every item that it names, in manual
mode to a copy, and to what integrity requires. -/
def Follows (o : ResolveOptions) (r : TailoringReference) (id : ItemId) : Prop :=
  o.filter.admits r.type = true ∧
    match o.mode with
    | .closure => id ∈ r.namedItems
    | .manual => (r.type.isCopy = true ∧ id = r.target) ∨
        (r.type.isIntegrityRequired = true ∧ id ∈ r.namedItems)

end ResolveOptions

/-- The least set of items that holds the requested ones and, with every member that is not cut,
the items of the namespace to which references of it lead. -/
inductive Closure (graph : TemplateGraph) (request : IncarnationRequest)
    (leads : TailoringReference → ItemId → Prop) (cut : TemplateItem → Prop) : ItemId → Prop
  | requested {id : ItemId} : id ∈ request.items → Closure graph request leads cut id
  | led {origin target : ItemId} {item : TemplateItem} {r : TailoringReference} :
      Closure graph request leads cut origin → graph.getIn? request.source origin = some item →
      ¬ cut item → r ∈ item.references → leads r target →
      (graph.getIn? request.source target).isSome = true →
      Closure graph request leads cut target

variable {graph : TemplateGraph} {request : IncarnationRequest} {options : ResolveOptions}
  {reused : List ItemId} {id : ItemId}

/-- Only what is cut among the members decides about a closure. -/
theorem Closure.of_cut {leads : TailoringReference → ItemId → Prop} {cut cut' : TemplateItem → Prop}
    (h : Closure graph request leads cut id)
    (uncut : ∀ id item, Closure graph request leads cut id →
      graph.getIn? request.source id = some item → ¬ cut item → ¬ cut' item) :
    Closure graph request leads cut' id := by
  induction h with
  | requested hid => exact .requested hid
  | led origin found kept hr leads exists_target ih =>
    exact .led ih found (uncut _ _ origin found kept) hr leads exists_target

/-- A cut that spares the members of the uncut closure does not matter. -/
theorem Closure.iff_uncut {leads : TailoringReference → ItemId → Prop} {cut : TemplateItem → Prop}
    (spares : ∀ id item, Closure graph request leads (fun _ => False) id →
      graph.getIn? request.source id = some item → ¬ cut item) :
    Closure graph request leads cut id ↔ Closure graph request leads (fun _ => False) id := by
  constructor
  · exact fun member => member.of_cut fun _ _ _ _ _ cut => cut
  · exact fun member => member.of_cut fun id item within found _ => spares id item within found

/-- The walk for a request that follows no references of reused items. -/
def IncarnationRequest.walk (request : IncarnationRequest) (graph : TemplateGraph)
    (options : ResolveOptions) (reused : List ItemId) : Walk :=
  { graph, nspace := request.source, options, reused }

namespace Walk

variable {w : Walk} {t : ItemId}

theorem mem_followed {item : TemplateItem} {r : TailoringReference} :
    r ∈ w.followed item ↔
      item.id ∉ w.reused ∧ r ∈ item.references ∧ w.options.filter.admits r.type = true := by
  unfold followed admitted
  by_cases h : item.id ∈ w.reused
  · simp [h]
  · simp [h]

theorem mem_copies : t ∈ w.copies id ↔
    ∃ item, w.item? id = some item ∧ item.id ∉ w.reused ∧
      ∃ r ∈ item.references, w.options.Copies r t := by
  unfold copies
  cases w.item? id with
  | none => simp
  | some item =>
    simp only [List.mem_map, List.mem_filter, mem_followed, Option.some.injEq, exists_eq_left',
      ResolveOptions.Copies]
    constructor
    · rintro ⟨r, ⟨⟨kept, hr, admitted⟩, copy⟩, rfl⟩
      exact ⟨kept, r, hr, admitted, copy, rfl⟩
    · rintro ⟨kept, r, hr, admitted, copy, rfl⟩
      exact ⟨r, ⟨⟨kept, hr, admitted⟩, copy⟩, rfl⟩

theorem mem_expansions : t ∈ w.expansions id ↔
    ∃ item, w.item? id = some item ∧ item.id ∉ w.reused ∧
      ∃ r ∈ item.references, w.options.filter.admits r.type = true ∧
        w.expandsOver r.type = true ∧ t ∈ r.namedItems := by
  unfold expansions
  cases w.item? id with
  | none => simp
  | some item =>
    simp only [List.mem_flatMap, List.mem_filter, mem_followed, Option.some.injEq, exists_eq_left']
    constructor
    · rintro ⟨r, ⟨⟨kept, hr, admitted⟩, expands⟩, named⟩
      exact ⟨kept, r, hr, admitted, expands, named⟩
    · rintro ⟨kept, r, hr, admitted, expands, named⟩
      exact ⟨r, ⟨⟨kept, hr, admitted⟩, expands⟩, named⟩

/-- A reused item leads nowhere. -/
theorem leads_of_reused (h : id ∈ w.reused) : w.copies id = [] ∧ w.expansions id = [] := by
  constructor
  · refine List.eq_nil_iff_forall_not_mem.mpr fun t ht => ?_
    obtain ⟨item, found, kept, -⟩ := mem_copies.mp ht
    exact kept (TemplateGraph.id_of_getIn? found ▸ h)
  · refine List.eq_nil_iff_forall_not_mem.mpr fun t ht => ?_
    obtain ⟨item, found, kept, -⟩ := mem_expansions.mp ht
    exact kept (TemplateGraph.id_of_getIn? found ▸ h)

/-- Copies and expansions together are what the mode follows. -/
theorem mem_copies_append_expansions : t ∈ w.copies id ++ w.expansions id ↔
    ∃ item, w.item? id = some item ∧ item.id ∉ w.reused ∧
      ∃ r ∈ item.references, w.options.Follows r t := by
  rw [List.mem_append, mem_copies, mem_expansions]
  unfold ResolveOptions.Follows ResolveOptions.Copies expandsOver
  cases w.options.mode with
  | closure =>
    simp only [true_and]
    constructor
    · rintro (⟨item, found, kept, r, hr, admitted, -, rfl⟩ | expansion)
      · exact ⟨item, found, kept, r, hr, admitted, List.mem_cons_self⟩
      · exact expansion
    · exact .inr
  | manual =>
    constructor
    · rintro (⟨item, found, kept, r, hr, admitted, copy⟩ |
        ⟨item, found, kept, r, hr, admitted, required⟩)
      · exact ⟨item, found, kept, r, hr, admitted, .inl copy⟩
      · exact ⟨item, found, kept, r, hr, admitted, .inr required⟩
    · rintro ⟨item, found, kept, r, hr, admitted, copy | required⟩
      · exact .inl ⟨item, found, kept, r, hr, admitted, copy⟩
      · exact .inr ⟨item, found, kept, r, hr, admitted, required⟩

theorem plannedItems_nodup (ids : List ItemId) : ((w.plannedItems ids).map (·.1)).Nodup := by
  obtain ⟨first, others⟩ := plannedItems_appends (w := w) ids
  exact others.nodup (first.nodup List.nodup_nil)

theorem plannedItems_exist (ids : List ItemId) (h : id ∈ (w.plannedItems ids).map (·.1)) :
    (w.item? id).isSome = true :=
  plannedItems_sound (fun _ _ exists_item => exists_item) (fun _ _ _ _ exists_item => exists_item)
    id h

/-- The flagged items are those that are planned with the requested ones. -/
theorem flagged_iff {ids : List ItemId} :
    (id, true) ∈ w.plannedItems ids ↔ id ∈ (w.planEach true [] ids).map (·.1) := by
  obtain ⟨⟨copied, first, -⟩, ⟨others, all, -⟩⟩ := plannedItems_appends (w := w) ids
  rw [all, first]
  simp [Function.comp_def]

end Walk

section

variable (h : ∀ id ∈ request.items, (graph.getIn? request.source id).isSome = true)
include h

theorem mem_plannedItems_iff :
    id ∈ ((request.walk graph options reused).plannedItems request.items).map (·.1) ↔
      Closure graph request options.Follows (fun item => item.id ∈ reused) id := by
  constructor
  · refine Walk.plannedItems_sound (fun id hid _ => .requested hid) (fun id known t ht target => ?_) id
    obtain ⟨item, found, kept, r, hr, follows⟩ := Walk.mem_copies_append_expansions.mp ht
    exact .led known found kept hr follows target
  · obtain ⟨start, step⟩ :=
      Walk.plannedItems_settles (w := request.walk graph options reused) request.items
    intro member
    induction member with
    | requested hid => exact start _ hid (h _ hid)
    | led _ found kept hr follows target ih =>
      exact step _ ih _ (Walk.mem_copies_append_expansions.mpr ⟨_, found, kept, _, hr, follows⟩) target

theorem flag_plannedItems_iff :
    (id, true) ∈ (request.walk graph options reused).plannedItems request.items ↔
      Closure graph request options.Copies (fun item => item.id ∈ reused) id := by
  rw [Walk.flagged_iff]
  constructor
  · refine Walk.planEach_sound (fun _ => nofun) (fun id hid _ => .requested hid)
      (fun id known t ht target => ?_) id
    obtain ⟨item, found, kept, r, hr, copies⟩ := Walk.mem_copies.mp ht
    exact .led known found kept hr copies target
  · have empty : (request.walk graph options reused).CopiesSettled [] := fun _ => nofun
    obtain ⟨step, start⟩ := Walk.planEach_settles true request.items empty
    intro member
    induction member with
    | requested hid => exact start _ hid (h _ hid)
    | led _ found kept hr copies target ih =>
      exact step _ ih _ (Walk.mem_copies.mpr ⟨_, found, kept, _, hr, copies⟩) target

end

end TemplateCatalog
