import Mathlib.Data.Finset.Card
import Mathlib.Data.List.Perm.Subperm
import Mathlib.Logic.Relation
import Mathlib.Order.WellFounded
import TemplateCatalog.Proofs.Plan.Placing

/-!
# The creation order is a permutation

Whatever circles the dependencies form, every position is placed exactly once.
No position is placed twice because only what is left is placed. None is left
out because no step can fail: among the positions left, take one to which the
fewest others are behind; all that is behind it lies on its own circle, so
nothing else feeds the circle.

Results:
1. `Dependencies.mem_reachable_iff`: the bounded search finds what a position
   leads to.
2. `Dependencies.exists_enterable`: as long as a position is left, one can be placed.
3. `creationOrder_perm`: the order holds every position of the plan once.
-/

namespace TemplateCatalog

/-- The description at the first position has the second one as a main or auxiliary target. -/
def RefersTo (ds : List IncarnationDescription) (origin t : Nat) : Prop :=
  ∃ d, ds[origin]? = some d ∧ .planned t ∈ d.targets

namespace Dependencies

/-- The first position depends on the second, directly or through others. -/
def LeadsTo (g : Dependencies) : Nat → Nat → Prop :=
  Relation.TransGen fun a b => b ∈ g.targetsOf a

/-- No position depends on one that does not exist. -/
def Bounded (g : Dependencies) : Prop := ∀ a, ∀ t ∈ g.targetsOf a, t < g.size

variable {g : Dependencies} {seen frontier placed : List Nat} {rounds a b n t : Nat}

/-! ## Reachability -/

/-- What a frontier depends on and has not been seen. -/
def ahead (g : Dependencies) (seen frontier : List Nat) : List Nat :=
  distinct ((frontier.flatMap g.targetsOf).filter fun n => !seen.contains n)

theorem mem_ahead : t ∈ g.ahead seen frontier ↔ (∃ n ∈ frontier, t ∈ g.targetsOf n) ∧ t ∉ seen := by
  rw [ahead, mem_distinct, List.mem_filter, List.mem_flatMap]
  simp

theorem nodup_append_ahead (h : seen.Nodup) : (seen ++ g.ahead seen frontier).Nodup :=
  List.nodup_append.mpr ⟨h, distinct_nodup _, fun _ ha _ hb same =>
    (mem_ahead.mp hb).2 (same ▸ ha)⟩

/-- What a position depends on has been seen or lies ahead, unless the position is unknown. -/
theorem seen_or_ahead (expanded : ∀ n ∈ seen, n ∈ frontier ∨ ∀ t ∈ g.targetsOf n, t ∈ seen)
    (hn : n ∈ seen ∨ n ∈ frontier) (ht : t ∈ g.targetsOf n) :
    t ∈ seen ∨ t ∈ g.ahead seen frontier := by
  by_cases old : t ∈ seen
  · exact .inl old
  have front (hn : n ∈ frontier) := mem_ahead.mpr ⟨⟨n, hn, ht⟩, old⟩
  rcases hn with hn | hn
  · exact (expanded n hn).elim (fun hn => .inr (front hn)) fun all => .inl (all t ht)
  · exact .inr (front hn)

theorem reach_succ : g.reach (rounds + 1) seen frontier =
    if (g.ahead seen frontier).isEmpty then seen
    else g.reach rounds (seen ++ g.ahead seen frontier) (g.ahead seen frontier) := rfl

theorem mem_reach_of_seen (h : n ∈ seen) : n ∈ g.reach rounds seen frontier := by
  induction rounds generalizing seen frontier with
  | zero => exact h
  | succ rounds ih =>
    rw [reach_succ]
    split
    · exact h
    · exact ih (List.mem_append_left _ h)

theorem reach_sound {P : Nat → Prop} (start : ∀ n ∈ seen, P n)
    (next : ∀ n ∈ frontier, ∀ t ∈ g.targetsOf n, P t)
    (step : ∀ n, P n → ∀ t ∈ g.targetsOf n, P t) :
    ∀ n ∈ g.reach rounds seen frontier, P n := by
  induction rounds generalizing seen frontier with
  | zero => exact start
  | succ rounds ih =>
    have found : ∀ t ∈ g.ahead seen frontier, P t := by
      intro t ht
      obtain ⟨⟨n, hn, hnt⟩, -⟩ := mem_ahead.mp ht
      exact next n hn t hnt
    rw [reach_succ]
    split
    · exact start
    · exact ih (List.forall_mem_append.mpr ⟨start, found⟩) fun n hn => step n (found n hn)

/-- With a round for every position not seen, the search ends in a set that nothing leads out of. -/
theorem reach_closed (bounded : g.Bounded) (nodup : seen.Nodup) (inside : ∀ n ∈ seen, n < g.size)
    (enough : g.size ≤ rounds + seen.length)
    (expanded : ∀ n ∈ seen, n ∈ frontier ∨ ∀ t ∈ g.targetsOf n, t ∈ seen)
    (hn : n ∈ g.reach rounds seen frontier ∨ n ∈ frontier) (ht : t ∈ g.targetsOf n) :
    t ∈ g.reach rounds seen frontier := by
  induction rounds generalizing seen frontier with
  | zero =>
    -- no round is left because every position has been seen
    have sub : seen ⊆ List.range g.size := fun m hm => List.mem_range.mpr (inside m hm)
    have all := (List.subperm_of_subset nodup sub).perm_of_length_le (by simpa using enough)
    exact all.mem_iff.mpr (List.mem_range.mpr (bounded n t ht))
  | succ rounds ih =>
    rw [reach_succ] at hn ⊢
    split at hn
    · next none =>
      rw [if_pos none]
      rcases seen_or_ahead expanded hn ht with old | new
      · exact old
      · rw [List.isEmpty_iff.mp none] at new
        cases new
    · next some =>
      rw [if_neg some]
      rcases hn with hn | hn
      · refine ih (nodup_append_ahead nodup) ?_ ?_ ?_ (.inl hn)
        · refine List.forall_mem_append.mpr ⟨inside, fun t ht => ?_⟩
          obtain ⟨⟨n, -, hnt⟩, -⟩ := mem_ahead.mp ht
          exact bounded n t hnt
        · have := List.length_pos_iff.mpr fun e => some (List.isEmpty_iff.mpr e)
          rw [List.length_append]
          omega
        · intro m hm
          rcases List.mem_append.mp hm with hm | hm
          · exact .inr fun t ht => List.mem_append.mpr (seen_or_ahead expanded (.inl hm) ht)
          · exact .inl hm
      · exact mem_reach_of_seen (List.mem_append.mpr (seen_or_ahead expanded (.inr hn) ht))

theorem mem_reachable_iff (bounded : g.Bounded) : b ∈ g.reachable a ↔ g.LeadsTo a b := by
  constructor
  · refine reach_sound (fun _ => nofun) (fun n hn t ht => ?_) (fun n hn t ht => hn.tail ht) b
    rw [List.mem_singleton.mp hn] at ht
    exact .single ht
  · intro h
    have closed {n t : Nat} (hn : n ∈ g.reachable a ∨ n ∈ [a]) (ht : t ∈ g.targetsOf n) :
        t ∈ g.reachable a :=
      reach_closed bounded List.nodup_nil (fun _ => nofun) (Nat.le_add_right _ _) (fun _ => nofun)
        hn ht
    induction h with
    | single ht => exact closed (.inr List.mem_cons_self) ht
    | tail _ ht ih => exact closed (.inl ih) ht

/-! ## Circles -/

/-- The circle of a position. -/
theorem mem_circle_iff (bounded : g.Bounded) (hn : n < g.size) :
    b ∈ (g.circles[n]?).getD [] ↔ b < g.size ∧ (b = n ∨ g.LeadsTo n b ∧ g.LeadsTo b n) := by
  have leads (a b : Nat) (ha : a < g.size) :
      b ∈ (((List.range g.size).map g.reachable)[a]?).getD [] ↔ g.LeadsTo a b := by
    rw [← mem_reachable_iff bounded]
    simp [ha]
  simp only [circles, positions, List.getElem?_map, List.getElem?_range hn]
  simp only [Option.map_some, Option.getD_some, List.mem_filter, List.mem_range, Bool.or_eq_true,
    Bool.and_eq_true, beq_iff_eq, List.contains_iff_mem]
  refine and_congr_right fun hb => or_congr eq_comm ?_
  simpa using and_congr (leads n b hn) (leads b n hb)

/-- The positions left that a position leads to, itself included. -/
noncomputable def behind (g : Dependencies) (placed : List Nat) (n : Nat) : Finset Nat :=
  open Classical in (g.left placed).toFinset.filter fun m => m = n ∨ g.LeadsTo n m

theorem mem_behind : b ∈ g.behind placed n ↔ b ∈ g.left placed ∧ (b = n ∨ g.LeadsTo n b) := by
  simp [behind]

/-- A position left with the fewest others behind it is led to by all that is behind it. -/
theorem leadsTo_of_fewest (hn : n ∈ g.left placed)
    (fewest : ∀ m ∈ g.left placed, ¬ (g.behind placed m).card < (g.behind placed n).card)
    (hb : b ∈ g.behind placed n) : b = n ∨ g.LeadsTo b n := by
  obtain ⟨left, rfl | leads⟩ := mem_behind.mp hb
  · exact .inl rfl
  by_contra apart
  refine fewest b left (Finset.card_lt_card (Finset.ssubset_iff_of_subset ?_ |>.mpr ⟨n, ?_, ?_⟩))
  · intro m hm
    obtain ⟨left', rfl | leads'⟩ := mem_behind.mp hm
    · exact hb
    · exact mem_behind.mpr ⟨left', .inr (leads.trans leads')⟩
  · exact mem_behind.mpr ⟨hn, .inl rfl⟩
  · intro hn
    exact apart ((mem_behind.mp hn).2.imp_left Eq.symm)

theorem exists_enterable (bounded : g.Bounded) (hn : n ∈ g.left placed) :
    ∃ m ∈ g.left placed, g.Enterable placed m := by
  obtain ⟨m, hm, fewest⟩ := (measure fun n => (g.behind placed n).card).wf.has_min
    {n | n ∈ g.left placed} ⟨n, hn⟩
  have circle {b : Nat} := mem_circle_iff (b := b) bounded (mem_left.mp hm).1
  refine ⟨m, hm, List.all_eq_true.mpr fun c hc => List.all_eq_true.mpr fun t ht => ?_⟩
  obtain ⟨hc, -⟩ := List.mem_filter.mp hc
  rw [Bool.or_eq_true, List.contains_iff_mem, List.contains_iff_mem, circle]
  by_cases placed : t ∈ placed
  · exact .inl placed
  -- what the circle leads to is behind the position, so it lies on the circle
  have leads : g.LeadsTo m t := by
    rcases (circle.mp hc).2 with rfl | ⟨leads, -⟩
    · exact .single ht
    · exact leads.tail ht
  have left : t ∈ g.left _ := mem_left.mpr ⟨bounded c t ht, placed⟩
  refine .inr ⟨bounded c t ht, ?_⟩
  exact (leadsTo_of_fewest hm fewest (mem_behind.mpr ⟨left, .inr leads⟩)).imp_right fun back =>
    ⟨leads, back⟩

/-! ## The whole order -/

theorem place_perm (bounded : g.Bounded) {p : Placing} {count : Nat} (h : g.Reached p)
    (full : count + p.placed.length = g.size) :
    (g.place g.circles count p).Perm (List.range g.size) := by
  induction count generalizing p with
  | zero =>
    have sub : p.placed ⊆ List.range g.size := fun n hn => List.mem_range.mpr (h.inside n hn)
    exact (List.subperm_of_subset h.nodup sub).perm_of_length_le (by simp; omega)
  | succ count ih =>
    -- some position is left, since fewer are placed than there are
    have some_left : ∃ n, n ∈ g.left p.placed := by
      by_contra none
      have sub : List.range g.size ⊆ p.placed := fun n hn =>
        by_contra fun unplaced => none ⟨n, mem_left.mpr ⟨List.mem_range.mp hn, unplaced⟩⟩
      have := (List.subperm_of_subset List.nodup_range sub).length_le
      rw [List.length_range] at this
      omega
    obtain ⟨n, hn⟩ := some_left
    unfold place
    cases stepped : g.step? g.circles p with
    | none =>
      obtain ⟨m, left, enterable⟩ := exists_enterable bounded hn
      exact absurd enterable (stuck stepped m left)
    | some p' =>
      obtain ⟨_, -, placed, -⟩ := h.tracks.step stepped
      refine ih (h.snoc stepped) ?_
      rw [placed, List.length_append, List.length_singleton]
      omega

theorem ofDescriptions_size (ds : List IncarnationDescription) :
    (ofDescriptions ds).size = ds.length := by
  simp [ofDescriptions, size]

theorem mem_targetsOf_ofDescriptions {ds : List IncarnationDescription} {origin : Nat} :
    t ∈ (ofDescriptions ds).targetsOf origin ↔
      RefersTo ds origin t ∧ t ≠ origin ∧ t < ds.length := by
  have named (d : IncarnationDescription) : t ∈ d.plannedTargets ↔ .planned t ∈ d.targets := by
    rw [IncarnationDescription.plannedTargets, List.mem_filterMap]
    constructor
    · rintro ⟨target, ht, position⟩
      cases target with
      | planned p =>
        cases position
        exact ht
      | existing | unresolved => cases position
    · exact fun ht => ⟨.planned t, ht, rfl⟩
  unfold targetsOf ofDescriptions RefersTo
  cases h : ds[origin]? with
  | none => simp [h]
  | some d => simp [h, named]

theorem ofDescriptions_bounded (ds : List IncarnationDescription) :
    (ofDescriptions ds).Bounded := by
  intro a t ht
  rw [ofDescriptions_size]
  exact (mem_targetsOf_ofDescriptions.mp ht).2.2

end Dependencies

theorem creationOrder_perm (ds : List IncarnationDescription) :
    (creationOrder ds).Perm (List.range ds.length) := by
  rw [← Dependencies.ofDescriptions_size ds]
  exact Dependencies.place_perm (Dependencies.ofDescriptions_bounded ds) .nil (Nat.add_zero _)

theorem creationOrder_nodup (ds : List IncarnationDescription) : (creationOrder ds).Nodup :=
  (creationOrder_perm ds).nodup_iff.mpr List.nodup_range

/-- The descriptions in creation order are the descriptions of the plan in another order. -/
theorem perm_of_creationOrder (ds : List IncarnationDescription) :
    ((creationOrder ds).filterMap fun n => ds[n]?).Perm ds := by
  have all : (List.range ds.length).map (fun n => ds[n]?) = ds.map some :=
    List.ext_getElem (by simp) fun n _ _ => by simp_all
  have inOrder : (List.range ds.length).filterMap (fun n => ds[n]?) = ds := by
    calc (List.range ds.length).filterMap (fun n => ds[n]?)
      _ = ((List.range ds.length).map fun n => ds[n]?).filterMap id := by
          rw [List.filterMap_map]
          rfl
      _ = ds := by rw [all, List.filterMap_map]; exact List.filterMap_some
  have perm := (creationOrder_perm ds).filterMap fun n => ds[n]?
  rwa [inOrder] at perm

end TemplateCatalog
