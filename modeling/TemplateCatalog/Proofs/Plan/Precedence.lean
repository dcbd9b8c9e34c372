import TemplateCatalog.Proofs.Plan.CreationOrder

/-!
# Targets are created first

When a position is placed, all that it depends on has been placed or leads back
to it: a position is ready, or nothing that is left leads into its circle from
outside. Later placements stand behind, so this holds of the whole order.

Results:
1. `Dependencies.Next.targets`: what the next position depends on.
2. `Dependencies.place_ordered`: placing keeps an order in which targets come first.
3. `creationOrder_targets_first`: every position stands in the order once, behind
   all targets that do not lead back to it.
-/

namespace TemplateCatalog

namespace Dependencies

variable {g : Dependencies} {placed order : List Nat} {n o t : Nat}

/-- Every position stands behind all it depends on, apart from what leads back to it. -/
inductive Ordered (g : Dependencies) : List Nat → Prop
  | nil : Ordered g []
  | snoc {placed : List Nat} {n : Nat} :
      Ordered g placed → (∀ t ∈ g.targetsOf n, t ∈ placed ∨ g.LeadsTo t n) →
      Ordered g (placed ++ [n])

/-! ## Steps -/

/-- A position is placed because its targets are, or because only its own circle feeds it. -/
theorem Next.targets (bounded : g.Bounded) (h : g.Next placed n) :
    ∀ t ∈ g.targetsOf n, t ∈ placed ∨ g.LeadsTo t n := by
  intro t ht
  obtain ⟨inside, unplaced⟩ := mem_left.mp h.isLeft
  rcases h with ready | ⟨-, unfed⟩
  · exact .inl (ready.1.2 t ht)
  · have circle {b : Nat} := mem_circle_iff (b := b) bounded inside
    have left : n ∈ ((g.circles[n]?).getD []).filter fun m => !placed.contains m :=
      List.mem_filter.mpr ⟨circle.mpr ⟨inside, .inl rfl⟩, by simpa using unplaced⟩
    have fed := List.all_eq_true.mp (List.all_eq_true.mp unfed.1.2 n left) t ht
    rw [Bool.or_eq_true, List.contains_iff_mem, List.contains_iff_mem, circle] at fed
    rcases fed with before | ⟨-, rfl | ⟨-, back⟩⟩
    · exact .inl before
    · exact .inr (.single ht)
    · exact .inr back

theorem Reached.ordered (bounded : g.Bounded) {p : Placing} (h : g.Reached p) :
    g.Ordered p.placed := by
  induction h with
  | nil => exact .nil
  | snoc before stepped ih =>
    obtain ⟨_, next, placed, -⟩ := before.tracks.step stepped
    rw [placed]
    exact ih.snoc (next.targets bounded)

theorem place_ordered (bounded : g.Bounded) {p : Placing} {count : Nat} (h : g.Reached p) :
    g.Ordered (g.place g.circles count p) := by
  obtain ⟨p', reached, placed⟩ := place_reached h count
  rw [placed]
  exact reached.ordered bounded

/-! ## Places in an order -/

theorem Ordered.idxOf_lt (h : g.Ordered order) (nodup : order.Nodup) (ho : o ∈ order)
    (ht : t ∈ g.targetsOf o) (forward : ¬ g.LeadsTo t o) : order.idxOf t < order.idxOf o := by
  induction h with
  | nil => cases ho
  | @snoc placed n _ targets ih =>
    obtain ⟨nodup, -, apart⟩ := List.nodup_append.mp nodup
    rcases List.mem_append.mp ho with old | new
    · have before := ih nodup old
      have placed_t : t ∈ placed :=
        List.idxOf_lt_length_iff.mp (before.trans (List.idxOf_lt_length_iff.mpr old))
      rw [List.idxOf_append_of_mem placed_t, List.idxOf_append_of_mem old]
      exact before
    · cases List.mem_singleton.mp new
      have fresh : o ∉ placed := fun old => apart o old o new rfl
      have placed_t : t ∈ placed := (targets t ht).resolve_right forward
      rw [List.idxOf_append_of_mem placed_t, List.idxOf_append_of_notMem fresh]
      exact Nat.lt_add_right _ (List.idxOf_lt_length_iff.mpr placed_t)

/-- What dependencies lead to, references lead to. -/
theorem leadsTo_ofDescriptions {ds : List IncarnationDescription}
    (h : (ofDescriptions ds).LeadsTo t o) : Relation.TransGen (RefersTo ds) t o :=
  h.lift id fun _ _ ht => (mem_targetsOf_ofDescriptions.mp ht).1

end Dependencies

/-- Every position is placed once. A target is placed before the description that refers to it,
unless references lead from the target back to that description. -/
theorem creationOrder_targets_first (ds : List IncarnationDescription) :
    (creationOrder ds).Perm (List.range ds.length) ∧
      ∀ o t, RefersTo ds o t → t < ds.length → t ≠ o →
        ¬ Relation.TransGen (RefersTo ds) t o →
        (creationOrder ds).idxOf t < (creationOrder ds).idxOf o := by
  have perm := creationOrder_perm ds
  refine ⟨perm, fun o t refers inPlan other forward => ?_⟩
  have ordered : (Dependencies.ofDescriptions ds).Ordered (creationOrder ds) :=
    Dependencies.place_ordered (Dependencies.ofDescriptions_bounded ds) .nil
  have placed : o ∈ creationOrder ds := by
    obtain ⟨d, found, -⟩ := refers
    exact perm.mem_iff.mpr (List.mem_range.mpr (List.getElem?_eq_some_iff.mp found).1)
  refine ordered.idxOf_lt (creationOrder_nodup ds) placed ?_ ?_
  · exact Dependencies.mem_targetsOf_ofDescriptions.mpr ⟨refers, other, inPlan⟩
  · exact fun back => forward (Dependencies.leadsTo_ofDescriptions back)

/-- Two descriptions refer to one another. The first one of the plan refers to itself, past the plan
and, by an auxiliary target, into the circle, so the circle is entered first. -/
theorem creationOrder_of_fed_circle :
    let refer (target : ReferenceTarget) (auxiliary : List AuxiliaryTarget) : ResolvedReference :=
      { reference := ⟨⟨20⟩⟩, targetItem := ⟨⟨10⟩⟩, kind := .plainRisk, target, auxiliary }
    let describe (references : List ResolvedReference) : IncarnationDescription :=
      { item := ⟨⟨10⟩⟩, requested := true, disposition := .create ⟨⟨50⟩⟩ false, references }
    let ds := [
      describe [refer (.planned 0) [⟨.riskOwner, ⟨⟨11⟩⟩, .planned 1⟩], refer (.planned 7) []],
      describe [refer (.planned 2) []],
      describe [refer (.planned 1) []]]
    creationOrder ds = [1, 0, 2] ∧ RefersTo ds 0 1 ∧ ¬ Relation.TransGen (RefersTo ds) 1 0 ∧
      (creationOrder ds).Perm (List.range ds.length) ∧
      (creationOrder ds).idxOf 1 < (creationOrder ds).idxOf 0 := by
  intro refer describe ds
  have refers : RefersTo ds 0 1 := ⟨_, rfl, by decide⟩
  have stays : ∀ a b, RefersTo ds a b → a ≠ 0 → b ≠ 0 := by
    rintro a b ⟨d, found, named⟩ other
    match a with
    | 0 => exact absurd rfl other
    | 1 | 2 =>
      cases found
      rintro rfl
      revert named
      decide
    | a + 3 => cases found
  have forward : ¬ Relation.TransGen (RefersTo ds) 1 0 := by
    intro back
    have never : ∀ b, Relation.TransGen (RefersTo ds) 1 b → b ≠ 0 := by
      intro b reached
      induction reached with
      | single step => exact stays _ _ step (by decide)
      | tail _ step ih => exact stays _ _ step ih
    exact never 0 back rfl
  obtain ⟨perm, first⟩ := creationOrder_targets_first ds
  exact ⟨by decide, refers, forward, perm,
    first 0 1 refers (by decide) (by decide) forward⟩

end TemplateCatalog
