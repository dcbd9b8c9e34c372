import TemplateCatalog.Proofs.Plan.References
import TemplateCatalog.Proofs.Plan.Visibility

/-!
# What merging drops

Whether to merge is asked at the very end of a resolution. So a plan that is
resolved with merging is the plan resolved without it, with some references
dropped. Of the references that state one relation the first is kept, whatever
becomes of the item that states it.

`statements` lists the relations that descriptions state, in plan order, each
with whether it is stated for a new element.

Results:
1. `resolve_merging`: with merging a request is resolved to the merged plan.
2. `mergeFrom_covers`, `mergeFrom_keeps`: the first statement of a relation is
   kept, and so is a reference that states none.
3. `references_of_reuse`: except under `always`, nothing is stated for an element
   that is reused.
-/

namespace TemplateCatalog

/-! ## The walk does not ask -/

/-- The plan after merging. -/
def IncarnationPlan.merged (p : IncarnationPlan) : IncarnationPlan :=
  { p with
    descriptions := mergeBidirectional p.descriptions
    creationOrder := TemplateCatalog.creationOrder (mergeBidirectional p.descriptions) }

/-- Merging changes the references of a plan and its creation order, and nothing else. -/
theorem resolve_merging (graph : TemplateGraph) (c : Connection) (fresh : Nat → ElementId)
    (request : IncarnationRequest) (options : ResolveOptions) :
    resolve graph c fresh request { options with mergeBidirectional := true } =
      (resolve graph c fresh request { options with mergeBidirectional := false }).map
        (·.merged) := by
  have alike : graph.AlikeUnder
      ({ options with mergeBidirectional := false } : ResolveOptions).filter graph := .refl _ _
  unfold resolve
  split
  · rfl
  · cases missingItem? graph request with
    | some item => rfl
    | none =>
      -- merging or not, the walk follows the same references
      rcases survey_onGraph_cases alike true c request with
        ⟨e, failed, failed'⟩ | ⟨v, v', found, found', descriptions, issues⟩
      · simp only [failed, failed']
        rfl
      · simp only [found, found', descriptions, issues, if_true]
        rfl

/-! ## Statements -/

theorem ReferenceTarget.eq_planned_of_position? {t : ReferenceTarget} {n : Nat}
    (h : t.position? = some n) : t = .planned n := by
  cases t with
  | planned n' =>
    cases h
    rfl
  | existing | unresolved => cases h

theorem ResolvedReference.relation?_of_isCopy {r : ResolvedReference} (origin : Nat)
    (h : r.kind.type.isCopy = true) : r.relation? origin = none := by
  unfold relation?
  cases r.target.position? with
  | none => rfl
  | some target =>
    rcases ReferenceKind.isCopy_type_iff.mp h with copy | copy
    · rw [copy]
      rfl
    · rw [copy]
      rfl

/-- The relations that a description at a position states, each with whether the description
creates an element. -/
def IncarnationDescription.statements (d : IncarnationDescription) (origin : Nat) :
    List (Bool × Relation) :=
  (d.references.filterMap (·.relation? origin)).map (d.disposition.isCreate, ·)

/-- The statements of descriptions from a position on, in the order of the plan. -/
def statements : (origin : Nat) → List IncarnationDescription → List (Bool × Relation)
  | _, [] => []
  | origin, d :: rest => d.statements origin ++ statements (origin + 1) rest

variable {origin : Nat} {seen : List Relation} {rs : List ResolvedReference}
  {r : ResolvedReference} {relation : Relation} {ds : List IncarnationDescription}
  {d : IncarnationDescription} {creates : Bool}

theorem IncarnationDescription.mem_statements : (creates, relation) ∈ d.statements origin ↔
    d.disposition.isCreate = creates ∧ ∃ r ∈ d.references, r.relation? origin = some relation := by
  simp only [statements, List.mem_map, List.mem_filterMap, Prod.mk.injEq, exists_eq_right_right]
  exact and_comm

theorem mem_statements : (creates, relation) ∈ statements origin ds ↔
    ∃ (i : Nat) (d : IncarnationDescription), ds[i]? = some d ∧ d.disposition.isCreate = creates ∧
      ∃ r ∈ d.references, r.relation? (origin + i) = some relation := by
  induction ds generalizing origin with
  | nil => simp [statements]
  | cons d rest ih =>
    rw [statements, List.mem_append, IncarnationDescription.mem_statements, ih]
    constructor
    · rintro (⟨same, stated⟩ | ⟨i, d', hd, same, stated⟩)
      · exact ⟨0, d, rfl, same, stated⟩
      · rw [Nat.add_right_comm] at stated
        exact ⟨i + 1, d', hd, same, stated⟩
    · rintro ⟨_ | i, d', hd, same, stated⟩
      · cases hd
        exact .inl ⟨same, stated⟩
      · rw [← Nat.add_assoc, Nat.add_right_comm] at stated
        exact .inr ⟨i, d', hd, same, stated⟩

/-- What is stated has a first statement. -/
theorem first_statement (h : (creates, relation) ∈ statements origin ds) :
    ∃ firstCreates, (statements origin ds).find? (fun p => p.2 = relation) =
      some (firstCreates, relation) := by
  cases first : (statements origin ds).find? (fun p => p.2 = relation) with
  | none => exact absurd (decide_eq_true rfl) (List.find?_eq_none.mp first _ h)
  | some p =>
    have same : p.2 = relation := by simpa using List.find?_some first
    exact ⟨p.1, by rw [← same]⟩

/-! ## What is kept -/

/-- A reference is kept if it states nothing, or what was not seen before. -/
theorem keepFirst_cons_cases (origin : Nat) (seen : List Relation) (r : ResolvedReference)
    (rest : List ResolvedReference) :
    (r.relation? origin = none ∧ keepFirst origin seen (r :: rest) =
        (r :: (keepFirst origin seen rest).1, (keepFirst origin seen rest).2)) ∨
      ∃ relation, r.relation? origin = some relation ∧
        ((relation ∈ seen ∧ keepFirst origin seen (r :: rest) = keepFirst origin seen rest) ∨
          (relation ∉ seen ∧ keepFirst origin seen (r :: rest) =
            (r :: (keepFirst origin (relation :: seen) rest).1,
              (keepFirst origin (relation :: seen) rest).2))) := by
  cases stated : r.relation? origin with
  | none => exact .inl ⟨rfl, by simp only [keepFirst, stated]⟩
  | some relation =>
    refine .inr ⟨relation, rfl, ?_⟩
    by_cases old : relation ∈ seen
    · exact .inl ⟨old, by simp only [keepFirst, stated, if_pos old]⟩
    · exact .inr ⟨old, by simp only [keepFirst, stated, if_neg old]⟩

/-- What was seen stays seen, and what is stated is added. -/
theorem mem_seen_keepFirst : relation ∈ (keepFirst origin seen rs).2 ↔
    relation ∈ seen ∨ ∃ r ∈ rs, r.relation? origin = some relation := by
  induction rs generalizing seen with
  | nil => simp [keepFirst]
  | cons r rest ih =>
    rw [List.exists_mem_cons_iff]
    rcases keepFirst_cons_cases origin seen r rest with
      ⟨none, eq⟩ | ⟨first, some, ⟨old, eq⟩ | ⟨new, eq⟩⟩
    · rw [eq, ih, none]
      simp
    · rw [eq, ih, some, Option.some.injEq]
      constructor
      · rintro (seen | later)
        · exact .inl seen
        · exact .inr (.inr later)
      · rintro (seen | rfl | later)
        · exact .inl seen
        · exact .inl old
        · exact .inr later
    · rw [eq, ih, some, Option.some.injEq, List.mem_cons, @eq_comm _ relation, or_assoc,
        or_left_comm]

/-- A relation that was not seen before is still stated. -/
theorem keepFirst_covers (unseen : relation ∉ seen)
    (stated : ∃ r ∈ rs, r.relation? origin = some relation) :
    ∃ r ∈ (keepFirst origin seen rs).1, r.relation? origin = some relation := by
  induction rs generalizing seen with
  | nil =>
    obtain ⟨r, hr, -⟩ := stated
    cases hr
  | cons r rest ih =>
    rw [List.exists_mem_cons_iff] at stated
    rcases keepFirst_cons_cases origin seen r rest with
      ⟨none, eq⟩ | ⟨first, some, ⟨old, eq⟩ | ⟨new, eq⟩⟩
    · rw [eq, List.exists_mem_cons_iff]
      rw [none] at stated
      exact .inr (ih unseen (stated.resolve_left nofun))
    · rw [eq]
      refine ih unseen (stated.resolve_left fun same => ?_)
      cases some.symm.trans same
      exact unseen old
    · rw [eq, List.exists_mem_cons_iff]
      by_cases same : relation = first
      · exact .inl (same ▸ some)
      · refine .inr (ih ?_ (stated.resolve_left fun other => ?_))
        · exact fun listed => (List.mem_cons.mp listed).elim same unseen
        · exact same (Option.some.inj (other.symm.trans some))

/-- A reference that states no relation is kept. -/
theorem keepFirst_keeps (hr : r ∈ rs) (unrelated : r.relation? origin = none) :
    r ∈ (keepFirst origin seen rs).1 := by
  induction rs generalizing seen with
  | nil => cases hr
  | cons head rest ih =>
    rcases keepFirst_cons_cases origin seen head rest with
      ⟨-, eq⟩ | ⟨first, some, ⟨-, eq⟩ | ⟨-, eq⟩⟩
    · rw [eq]
      rcases List.mem_cons.mp hr with rfl | later
      · exact List.mem_cons_self
      · exact List.mem_cons_of_mem _ (ih later)
    · rw [eq]
      rcases List.mem_cons.mp hr with rfl | later
      · cases some.symm.trans unrelated
      · exact ih later
    · rw [eq]
      rcases List.mem_cons.mp hr with rfl | later
      · exact List.mem_cons_self
      · exact List.mem_cons_of_mem _ (ih later)

/-- The first statement of a relation is kept. -/
theorem mergeFrom_covers (unseen : relation ∉ seen)
    (first : (statements origin ds).find? (fun p => p.2 = relation) = some (creates, relation)) :
    (creates, relation) ∈ statements origin (mergeFrom origin seen ds) := by
  induction ds generalizing origin seen with
  | nil => cases first
  | cons d rest ih =>
    rw [statements, List.find?_append] at first
    show _ ∈ statements origin ({ d with references := _ } :: mergeFrom (origin + 1) _ rest)
    rw [statements, List.mem_append, IncarnationDescription.mem_statements]
    cases here : (d.statements origin).find? (fun p => p.2 = relation) with
    | some p =>
      rw [here] at first
      cases first
      obtain ⟨same, stated⟩ :=
        IncarnationDescription.mem_statements.mp (List.mem_of_find?_eq_some here)
      exact .inl ⟨same, keepFirst_covers unseen stated⟩
    | none =>
      rw [here] at first
      refine .inr (ih (fun listed => ?_) first)
      rcases mem_seen_keepFirst.mp listed with before | stated
      · exact unseen before
      · have mentioned := IncarnationDescription.mem_statements.mpr ⟨rfl, stated⟩
        exact List.find?_eq_none.mp here _ mentioned (decide_eq_true rfl)

/-- A reference that states no relation is kept. -/
theorem mergeFrom_keeps {i : Nat} (hd : ds[i]? = some d) (hr : r ∈ d.references)
    (unrelated : r.relation? (origin + i) = none) :
    ∃ d', (mergeFrom origin seen ds)[i]? = some d' ∧ d.Thins d' ∧ r ∈ d'.references := by
  induction ds generalizing origin seen i with
  | nil => cases hd
  | cons head rest ih =>
    cases i with
    | zero =>
      cases hd
      exact ⟨_, rfl, ⟨rfl, rfl, rfl, keepFirst_sublist origin seen _⟩, keepFirst_keeps hr unrelated⟩
    | succ i =>
      rw [← Nat.add_assoc, Nat.add_right_comm] at unrelated
      exact ih hd unrelated

/-! ## Reused items -/

/-- Except under `always`, the references of a reused item are not followed. -/
theorem references_of_reuse {graph : TemplateGraph} {s : Store} {fresh : Nat → ElementId}
    {request : IncarnationRequest} {options : ResolveOptions} {plan : IncarnationPlan}
    (resolved : resolve graph s.connect fresh request options = .ok plan)
    (notAlways : options.lookup ≠ .always) (hd : d ∈ plan.descriptions)
    (reuses : d.disposition.isCreate = false) : d.references = [] := by
  obtain ⟨-, exist, reused, cuts, rfl⟩ := resolve_eq_ok resolved
  obtain ⟨p, hp, described⟩ :=
    forall₂_mem_right (settled_describes graph s fresh request options reused) hd
  have cut : d.isCut options.lookup = true := by
    rw [IncarnationDescription.isCut, reuses, Bool.not_false, Bool.and_true]
    exact (LookupPolicy.cuts_iff_of_appliesTo (described.applies_of_reuse reuses)).mpr notAlways
  obtain ⟨item, found, followed⟩ := settled_accountable fresh exist cuts hd
  have unfollowed : (request.walk graph options reused).followed item = [] :=
    followed.trans (if_pos cut)
  obtain ⟨new, thins⟩ := described.thins found
  have kept : d.references.Sublist
      (((request.walk graph options reused).followed item).filterMap _) := thins.references
  rw [unfollowed, List.filterMap_nil] at kept
  exact List.sublist_nil.mp kept

end TemplateCatalog
