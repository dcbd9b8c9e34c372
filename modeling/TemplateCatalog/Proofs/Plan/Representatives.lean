import TemplateCatalog.Proofs.Plan.Merging

/-!
# One reference for every relation

Merging goes through a plan reference by reference and keeps what states no
relation, or one not stated before. The relations seen are at any place those
that are stated before it (`StatedBefore`); from reference to reference and from
description to description this stays so. So merging can be told without what was
seen: it keeps the references that are the first to state their relation.

Results:
1. `ResolvedReference.relation?_eq_some_iff`: what the six kinds of references
   between planned items state.
2. `keepFirst_eq_filter`, `mergeFrom_eq_map`: what is kept of a description, and
   of a plan.
3. `keepFirst_keepFirst`, `mergeFrom_mergeFrom`: merging again drops nothing more.
4. `mergeBidirectional_representatives`: merging keeps exactly the references that
   are the first to state their relation.
-/

namespace TemplateCatalog

/-! ## What references state -/

/-- What a reference of the description at a position states. A part, a member or the target of a
link is held by the other end, and either end may refer to the other. -/
inductive ResolvedReference.States (r : ResolvedReference) (origin : Nat) : Relation → Prop
  | part {n : Nat} : r.kind = .part → r.target = .planned n → States r origin ⟨.part, origin, n⟩
  | composite {n : Nat} :
      r.kind = .composite → r.target = .planned n → States r origin ⟨.part, n, origin⟩
  | member {n : Nat} :
      r.kind = .member → r.target = .planned n → States r origin ⟨.member, origin, n⟩
  | scope {n : Nat} :
      r.kind = .scope → r.target = .planned n → States r origin ⟨.member, n, origin⟩
  | link {n : Nat} {linkType : String} {attributes : Dictionary FreeForm} :
      r.kind = .link linkType attributes → r.target = .planned n →
      States r origin ⟨.link linkType, origin, n⟩
  | linkExternal {n : Nat} {linkType : String} {attributes : Dictionary FreeForm} :
      r.kind = .linkExternal linkType attributes → r.target = .planned n →
      States r origin ⟨.link linkType, n, origin⟩

variable {ds : List IncarnationDescription} {d : IncarnationDescription}
  {r : ResolvedReference} {rs rest : List ResolvedReference} {relation first : Relation}
  {seen : List Relation} {origin i j : Nat}

theorem ResolvedReference.relation?_eq_some_iff :
    r.relation? origin = some relation ↔ r.States origin relation := by
  constructor
  · intro stated
    obtain ⟨n, position, stated⟩ := Option.bind_eq_some_iff.mp stated
    have target := ReferenceTarget.eq_planned_of_position? position
    cases kind : r.kind with
    | part =>
      simp only [kind] at stated
      cases stated
      exact .part kind target
    | composite =>
      simp only [kind] at stated
      cases stated
      exact .composite kind target
    | member =>
      simp only [kind] at stated
      cases stated
      exact .member kind target
    | scope =>
      simp only [kind] at stated
      cases stated
      exact .scope kind target
    | link =>
      simp only [kind] at stated
      cases stated
      exact .link kind target
    | linkExternal =>
      simp only [kind] at stated
      cases stated
      exact .linkExternal kind target
    | copy | copyAlways | risk | controlImplementation | requirementImplementation =>
      simp only [kind] at stated
      cases stated
  · intro stated
    cases stated with
    | part kind target | composite kind target | member kind target | scope kind target
    | link kind target | linkExternal kind target =>
      simp only [relation?, target, kind, ReferenceTarget.position?, Option.bind_some]

/-! ## What is stated before a place -/

/-- The relation is stated by an earlier description, or by an earlier reference of the same one. -/
inductive StatedBefore (ds : List IncarnationDescription) (i j : Nat) (relation : Relation) : Prop
  | earlier {i' : Nat} {d : IncarnationDescription} {r : ResolvedReference} :
      i' < i → ds[i']? = some d → r ∈ d.references → r.States i' relation →
      StatedBefore ds i j relation
  | beside {j' : Nat} {d : IncarnationDescription} {r : ResolvedReference} :
      j' < j → ds[i]? = some d → d.references[j']? = some r → r.States i relation →
      StatedBefore ds i j relation

/-- The reference states no relation that is stated before. -/
def IsFirst (ds : List IncarnationDescription) (i j : Nat) (r : ResolvedReference) : Prop :=
  ∀ relation, r.States i relation → ¬ StatedBefore ds i j relation

theorem not_statedBefore_start : ¬ StatedBefore ds 0 0 relation := by
  rintro (⟨less, -, -, -⟩ | ⟨less, -, -, -⟩)
  · cases less
  · cases less

theorem statedBefore_next_reference (hd : ds[i]? = some d) (hr : d.references[j]? = some r)
    (relation : Relation) :
    StatedBefore ds i (j + 1) relation ↔ StatedBefore ds i j relation ∨ r.States i relation := by
  constructor
  · rintro (⟨less, hd', hr', stated⟩ | ⟨less, hd', hr', stated⟩)
    · exact .inl (.earlier less hd' hr' stated)
    · rcases Nat.lt_succ_iff_lt_or_eq.mp less with less | rfl
      · exact .inl (.beside less hd' hr' stated)
      · cases hd.symm.trans hd'
        cases hr.symm.trans hr'
        exact .inr stated
  · rintro ((⟨less, hd', hr', stated⟩ | ⟨less, hd', hr', stated⟩) | stated)
    · exact .earlier less hd' hr' stated
    · exact .beside (Nat.lt_succ_of_lt less) hd' hr' stated
    · exact .beside (Nat.lt_succ_self j) hd hr stated

theorem statedBefore_next_description (hd : ds[i]? = some d) :
    StatedBefore ds (i + 1) 0 relation ↔
      StatedBefore ds i 0 relation ∨ ∃ r ∈ d.references, r.States i relation := by
  constructor
  · rintro (⟨less, hd', hr, stated⟩ | ⟨less, -, -, -⟩)
    · rcases Nat.lt_succ_iff_lt_or_eq.mp less with less | rfl
      · exact .inl (.earlier less hd' hr stated)
      · cases hd.symm.trans hd'
        exact .inr ⟨_, hr, stated⟩
    · cases less
  · rintro ((⟨less, hd', hr, stated⟩ | ⟨less, -, -, -⟩) | ⟨r, hr, stated⟩)
    · exact .earlier (Nat.lt_succ_of_lt less) hd' hr stated
    · cases less
    · exact .earlier (Nat.lt_succ_self i) hd hr stated

/-! ## What is kept -/

open Classical in
/-- The description at a position, without the references that state what is stated before. -/
noncomputable def firstsOf (ds : List IncarnationDescription) (i : Nat)
    (d : IncarnationDescription) : IncarnationDescription :=
  { d with references := (d.references.zipIdx.filter fun p => IsFirst ds i p.2 p.1).map Prod.fst }

open Classical in
/-- If the relations seen are those stated before a place, the references kept from there on are the
first to state their relation. -/
theorem keepFirst_eq_filter (hd : ds[i]? = some d) (left : d.references.drop j = rest)
    (known : ∀ relation, relation ∈ seen ↔ StatedBefore ds i j relation) :
    (keepFirst i seen rest).1 =
      ((rest.zipIdx j).filter fun p => IsFirst ds i p.2 p.1).map Prod.fst := by
  induction rest generalizing j seen with
  | nil => rfl
  | cons r rest ih =>
    have here : d.references[j]? = some r := by
      rw [← List.head?_drop, left, List.head?_cons]
    have left' : d.references.drop (j + 1) = rest := by
      rw [← List.tail_drop, left, List.tail_cons]
    have next := statedBefore_next_reference hd here
    simp only [← ResolvedReference.relation?_eq_some_iff] at next
    rw [List.zipIdx_cons, List.filter_cons]
    -- whatever becomes of the reference, what is seen behind it is what is stated up to it
    rcases keepFirst_cons_cases i seen r rest with
      ⟨none, eq⟩ | ⟨first, stated, ⟨old, eq⟩ | ⟨new, eq⟩⟩
    · have isFirst : IsFirst ds i j r := by
        intro relation states
        rw [← ResolvedReference.relation?_eq_some_iff, none] at states
        cases states
      rw [eq, if_pos (decide_eq_true isFirst), List.map_cons, ih left']
      intro relation
      rw [known, next, none]
      simp
    · have repeated : ¬ IsFirst ds i j r := fun isFirst =>
        isFirst first (ResolvedReference.relation?_eq_some_iff.mp stated) ((known first).mp old)
      rw [eq, if_neg (by simpa using repeated), ih left']
      intro relation
      rw [next, ← known, stated, Option.some.injEq]
      exact (or_iff_left_of_imp fun same => same ▸ old).symm
    · have isFirst : IsFirst ds i j r := by
        intro relation states before
        rw [← ResolvedReference.relation?_eq_some_iff, stated, Option.some.injEq] at states
        exact new ((known first).mpr (states ▸ before))
      rw [eq, if_pos (decide_eq_true isFirst), List.map_cons, ih left']
      intro relation
      rw [next, ← known, stated, Option.some.injEq, List.mem_cons, or_comm, eq_comm]

/-- If the relations seen are those stated before a description, this is how it and the descriptions
behind it are merged. -/
theorem mergeFrom_eq_map {rest : List IncarnationDescription} (left : ds.drop i = rest)
    (known : ∀ relation, relation ∈ seen ↔ StatedBefore ds i 0 relation) :
    mergeFrom i seen rest = (rest.zipIdx i).map fun p => firstsOf ds p.2 p.1 := by
  induction rest generalizing i seen with
  | nil => rfl
  | cons d rest ih =>
    have here : ds[i]? = some d := by
      rw [← List.head?_drop, left, List.head?_cons]
    have left' : ds.drop (i + 1) = rest := by
      rw [← List.tail_drop, left, List.tail_cons]
    have known' (relation : Relation) : relation ∈ (keepFirst i seen d.references).2 ↔
        StatedBefore ds (i + 1) 0 relation := by
      rw [mem_seen_keepFirst, known, statedBefore_next_description here]
      simp only [ResolvedReference.relation?_eq_some_iff]
    rw [List.zipIdx_cons, List.map_cons, firstsOf, ← keepFirst_eq_filter here List.drop_zero known,
      ← ih left' known']
    rfl

/-! ## Merging again -/

theorem keepFirst_keepFirst (origin : Nat) (seen : List Relation) (rs : List ResolvedReference) :
    keepFirst origin seen (keepFirst origin seen rs).1 = keepFirst origin seen rs := by
  induction rs generalizing seen with
  | nil => rfl
  | cons r rest ih =>
    rcases keepFirst_cons_cases origin seen r rest with
      ⟨none, eq⟩ | ⟨first, stated, ⟨-, eq⟩ | ⟨new, eq⟩⟩
    · rw [eq]
      simp only [keepFirst, none, ih]
    · rw [eq, ih]
    · rw [eq]
      simp only [keepFirst, stated, if_neg new, ih]

theorem mergeFrom_mergeFrom (origin : Nat) (seen : List Relation)
    (ds : List IncarnationDescription) :
    mergeFrom origin seen (mergeFrom origin seen ds) = mergeFrom origin seen ds := by
  induction ds generalizing origin seen with
  | nil => rfl
  | cons d rest ih => simp only [mergeFrom, keepFirst_keepFirst, ih]

/-- Merging leaves the items, their flags and their dispositions as they are. Of their references it
keeps, in their order, exactly those that state no relation and those that are the first in the
plan to state theirs. Merging again changes nothing. -/
theorem mergeBidirectional_representatives (ds : List IncarnationDescription) :
    mergeBidirectional ds = ds.mapIdx (firstsOf ds) ∧
      mergeBidirectional (mergeBidirectional ds) = mergeBidirectional ds := by
  refine ⟨?_, mergeFrom_mergeFrom 0 [] ds⟩
  rw [List.mapIdx_eq_zipIdx_map]
  refine mergeFrom_eq_map List.drop_zero fun relation => ?_
  exact iff_of_false List.not_mem_nil not_statedBefore_start

/-- Each of two items is a part of the other, which are two relations. The second item states both
of them once more from its end. -/
example :
    let refer (kind : ReferenceKind) (n : Nat) : ResolvedReference :=
      { reference := ⟨⟨20⟩⟩, targetItem := ⟨⟨10⟩⟩, kind, target := .planned n }
    let describe (references : List ResolvedReference) : IncarnationDescription :=
      { item := ⟨⟨10⟩⟩, requested := true, disposition := .reuse ⟨⟨50⟩⟩, references }
    mergeBidirectional [
        describe [refer .part 1, refer .composite 1],
        describe [refer .part 0, refer .copy 0, refer .composite 0]] =
      [describe [refer .part 1, refer .composite 1], describe [refer .copy 0]] := by
  decide

end TemplateCatalog
