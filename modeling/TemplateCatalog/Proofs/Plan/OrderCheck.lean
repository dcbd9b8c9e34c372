import Mathlib.Order.Bounds.Basic
import TemplateCatalog.Proofs.Plan.Stability

/-!
# What the check of an order decides

An order is checked without looking for it: its positions are ranked one by one,
then ranks are compared along the dependencies between different circles. Ranking
fails at a position that is unknown or listed before, so an order of the right
length that can be ranked is a permutation of the plan. The components tell
circles apart because each circle is named after its least position.

Results:
1. `Dependencies.rank?_isSome_iff`, `Dependencies.getElem?_of_rank?`: when ranking
   succeeds, and the ranks it gives.
2. `Dependencies.components_eq_iff`: two positions have the same component exactly if
   they lie on a common circle.
3. `Dependencies.isRespectedBy_iff`: which orders a check of dependencies accepts.
4. `respectsDependencies_iff`: which orders of a plan are accepted.
-/

namespace TemplateCatalog

namespace Dependencies

variable {g : Dependencies} {ranks ranks' : List (Option Nat)} {order : List Nat}
  {a b c m n next o t : Nat}

/-! ## Ranking -/

theorem rank?_cons (ranks : List (Option Nat)) (next n : Nat) (rest : List Nat) :
    rank? ranks next (n :: rest) =
      if ranks[n]? = some none then rank? (ranks.set n (some next)) (next + 1) rest else none := by
  rw [rank?]
  split
  · next free => rw [if_pos free]
  · next taken => rw [if_neg taken]

/-- Ranking a position fills its own slot. -/
theorem getElem?_set_rank (free : ranks[n]? = some none) :
    (ranks.set n (some next))[m]? = if m = n then some (some next) else ranks[m]? := by
  have inside : n < ranks.length := (List.getElem?_eq_some_iff.mp free).1
  rw [List.getElem?_set]
  by_cases same : m = n
  · rw [if_pos same.symm, if_pos inside, if_pos same]
  · rw [if_neg (Ne.symm same), if_neg same]

theorem unranked_set_rank_iff (free : ranks[n]? = some none) :
    (ranks.set n (some next))[m]? = some none ↔ m ≠ n ∧ ranks[m]? = some none := by
  rw [getElem?_set_rank free]
  split
  · next same => simp [same]
  · next other => simp [other]

/-- Exactly the lists without repetition of positions that have no rank can be ranked. -/
theorem rank?_isSome_iff :
    (rank? ranks next order).isSome = true ↔ order.Nodup ∧ ∀ n ∈ order, ranks[n]? = some none := by
  induction order generalizing ranks next with
  | nil => simp [rank?]
  | cons n rest ih =>
    rw [rank?_cons, List.nodup_cons, List.forall_mem_cons]
    split
    · next free =>
      simp only [ih, unranked_set_rank_iff free]
      constructor
      · rintro ⟨nodup, others⟩
        exact ⟨⟨fun again => (others n again).1 rfl, nodup⟩, free, fun m hm => (others m hm).2⟩
      · rintro ⟨⟨fresh, nodup⟩, -, others⟩
        exact ⟨nodup, fun m hm => ⟨fun same => fresh (same ▸ hm), others m hm⟩⟩
    · next taken => exact ⟨nofun, fun ⟨_, free, _⟩ => absurd free taken⟩

/-- A listed position is ranked where it is listed, and others are left as they are. -/
theorem getElem?_of_rank? (ranked : rank? ranks next order = some ranks') (m : Nat) :
    ranks'[m]? = if m ∈ order then some (some (next + order.idxOf m)) else ranks[m]? := by
  induction order generalizing ranks next with
  | nil =>
    cases ranked
    rfl
  | cons n rest ih =>
    obtain ⟨nodup, unranked⟩ := rank?_isSome_iff.mp (Option.isSome_of_eq_some ranked)
    have free := unranked n List.mem_cons_self
    rw [rank?_cons, if_pos free] at ranked
    rw [ih ranked, getElem?_set_rank free]
    by_cases same : m = n
    · subst same
      simp [(List.nodup_cons.mp nodup).1]
    · simp only [List.mem_cons, same, false_or, if_false, List.idxOf_cons_ne rest (Ne.symm same)]
      rw [Nat.add_right_comm, Nat.add_assoc]

theorem rankOf_of_rank? (ranked : rank? ranks 0 order = some ranks') (hn : n ∈ order) :
    rankOf ranks' n = order.idxOf n := by
  rw [rankOf, getElem?_of_rank? ranked, if_pos hn, Nat.zero_add]
  rfl

/-- An order of the right length can be ranked exactly if it holds every position once. -/
theorem perm_range_iff {size : Nat} : order.Perm (List.range size) ↔
    order.length = size ∧ (rank? (List.replicate size none) 0 order).isSome = true := by
  have unranked (n : Nat) :
      (List.replicate size (none : Option Nat))[n]? = some none ↔ n < size := by
    simp [List.getElem?_replicate]
  simp only [rank?_isSome_iff, unranked]
  constructor
  · intro perm
    refine ⟨?_, perm.nodup_iff.mpr List.nodup_range, fun n hn => ?_⟩
    · rw [perm.length_eq, List.length_range]
    · exact List.mem_range.mp (perm.mem_iff.mp hn)
  · rintro ⟨full, nodup, inside⟩
    have sub : order ⊆ List.range size := fun n hn => List.mem_range.mpr (inside n hn)
    exact (List.subperm_of_subset nodup sub).perm_of_length_le (by rw [List.length_range, full])

/-! ## Components -/

/-- The positions are the same, or lie on a common circle. -/
def Together (g : Dependencies) (a b : Nat) : Prop := a = b ∨ g.LeadsTo a b ∧ g.LeadsTo b a

theorem Together.symm (h : g.Together a b) : g.Together b a := h.imp Eq.symm And.symm

theorem Together.trans (h : g.Together a b) (h' : g.Together b c) : g.Together a c := by
  rcases h with rfl | ⟨there, back⟩
  · exact h'
  rcases h' with rfl | ⟨there', back'⟩
  · exact .inr ⟨there, back⟩
  · exact .inr ⟨there.trans there', back'.trans back⟩

/-- The positions on the circle of a position. -/
def circleOf (g : Dependencies) (n : Nat) : Set Nat := {b | b < g.size ∧ g.Together n b}

/-- The first position of a circle is its least one. -/
theorem exists_component (bounded : g.Bounded) (hn : n < g.size) :
    ∃ c, g.components[n]? = some c ∧ IsLeast (g.circleOf n) c := by
  obtain ⟨circle, found, sorted⟩ :
      ∃ circle, g.circles[n]? = some circle ∧ circle.Pairwise (· ≤ ·) := by
    simp only [circles, positions, List.getElem?_map, List.getElem?_range hn]
    exact ⟨_, rfl, List.pairwise_le_range.filter _⟩
  have member {b : Nat} : b ∈ circle ↔ b ∈ g.circleOf n := by
    have listed := mem_circle_iff (b := b) bounded hn
    rw [found, Option.getD_some, @eq_comm _ b n] at listed
    exact listed
  cases circle with
  | nil => cases member.mpr ⟨hn, .inl rfl⟩
  | cons c rest =>
    refine ⟨c, ?_, member.mp List.mem_cons_self, fun b hb => ?_⟩
    · rw [components, List.getElem?_map, found]
      rfl
    · rcases List.mem_cons.mp (member.mpr hb) with rfl | behind
      · exact Nat.le_refl b
      · exact List.rel_of_pairwise_cons sorted behind

theorem components_eq_iff (bounded : g.Bounded) (ha : a < g.size) (hb : b < g.size) :
    g.components[a]? = g.components[b]? ↔ g.Together a b := by
  obtain ⟨c, found, least⟩ := exists_component bounded ha
  obtain ⟨c', found', least'⟩ := exists_component bounded hb
  rw [found, found', Option.some.injEq]
  constructor
  · rintro rfl
    exact least.1.2.trans least'.1.2.symm
  · -- the circles are the same set, so their least positions are the same
    intro together
    have same : g.circleOf a = g.circleOf b := Set.ext fun m =>
      and_congr_right fun _ => ⟨together.symm.trans, together.trans⟩
    exact least.unique (same ▸ least')

/-! ## The check -/

theorem lt_size_of_target (ht : t ∈ g.targetsOf o) : o < g.size := by
  by_contra outside
  rw [targetsOf, List.getElem?_eq_none (Nat.not_lt.mp outside)] at ht
  cases ht

/-- A dependency runs within a circle exactly if it leads back. -/
theorem components_eq_iff_of_target (bounded : g.Bounded) (ht : t ∈ g.targetsOf o) :
    g.components[t]? = g.components[o]? ↔ g.LeadsTo t o := by
  rw [components_eq_iff bounded (bounded o t ht) (lt_size_of_target ht)]
  constructor
  · rintro (rfl | ⟨back, -⟩)
    · exact .single ht
    · exact back
  · exact fun back => .inr ⟨back, .single ht⟩

theorem isRespectedBy_iff (bounded : g.Bounded) : g.isRespectedBy order = true ↔
    order.Perm (List.range g.size) ∧
      ∀ o t, t ∈ g.targetsOf o → ¬ g.LeadsTo t o → order.idxOf t < order.idxOf o := by
  rw [isRespectedBy, Bool.and_eq_true, beq_iff_eq, perm_range_iff, and_assoc]
  refine and_congr_right fun full => ?_
  cases ranked : rank? (List.replicate g.size none) 0 order with
  | none => exact ⟨nofun, nofun⟩
  | some ranks =>
    have perm := perm_range_iff.mpr ⟨full, Option.isSome_of_eq_some ranked⟩
    have rank {n : Nat} (hn : n < g.size) : rankOf ranks n = order.idxOf n :=
      rankOf_of_rank? ranked (perm.mem_iff.mpr (List.mem_range.mpr hn))
    simp only [Option.isSome_some, true_and, List.all_eq_true, positions, List.mem_range,
      Bool.or_eq_true, beq_iff_eq, decide_eq_true_eq]
    constructor
    · intro checked o t ht forward
      have inside := lt_size_of_target ht
      rw [← rank inside, ← rank (bounded o t ht)]
      refine (checked o inside t ht).resolve_left fun same => forward ?_
      exact (components_eq_iff_of_target bounded ht).mp same
    · intro ordered o inside t ht
      rw [rank inside, rank (bounded o t ht), components_eq_iff_of_target bounded ht]
      exact or_iff_not_imp_left.mpr (ordered o t ht)

end Dependencies

/-- An order is accepted exactly if it holds every position of the plan once and nothing else, and
has every target before the description that refers to it, unless references lead from the target
back to that description. -/
theorem respectsDependencies_iff (ds : List IncarnationDescription) (order : List Nat) :
    respectsDependencies ds order = true ↔
      order.Perm (List.range ds.length) ∧
        ∀ o t, RefersTo ds o t → t < ds.length → t ≠ o →
          ¬ Relation.TransGen (RefersTo ds) t o → order.idxOf t < order.idxOf o := by
  rw [respectsDependencies, Dependencies.isRespectedBy_iff (Dependencies.ofDescriptions_bounded ds),
    Dependencies.ofDescriptions_size]
  refine and_congr_right fun _ => ?_
  constructor
  · intro ordered o t refers inside other forward
    refine ordered o t (Dependencies.mem_targetsOf_ofDescriptions.mpr ⟨refers, other, inside⟩) ?_
    exact fun back => forward (Dependencies.leadsTo_ofDescriptions back)
  · intro ordered o t ht forward
    obtain ⟨refers, other, inside⟩ := Dependencies.mem_targetsOf_ofDescriptions.mp ht
    refine ordered o t refers inside other fun back => ?_
    have origin : o < ds.length := by
      obtain ⟨d, found, -⟩ := refers
      exact (List.getElem?_eq_some_iff.mp found).1
    -- references of a description to itself are no dependencies, but no way needs them
    exact ((CreationOrder.led_iff origin).mp back.to_reflTransGen).elim other forward

/-- The first description has the second one as an auxiliary target, and the other two refer to one
another. Their circle may be entered at either end, but the second one has to come before the
first, and no position may be missing, twice or unknown. -/
theorem respectsDependencies_of_auxiliary_target :
    let refer (target : ReferenceTarget) (auxiliary : List AuxiliaryTarget) : ResolvedReference :=
      { reference := ⟨⟨20⟩⟩, targetItem := ⟨⟨10⟩⟩, kind := .plainRisk, target, auxiliary }
    let describe (references : List ResolvedReference) : IncarnationDescription :=
      { item := ⟨⟨10⟩⟩, requested := true, disposition := .create ⟨⟨50⟩⟩ false, references }
    let ds := [
      describe [refer (.existing ⟨⟨51⟩⟩) [⟨.riskOwner, ⟨⟨11⟩⟩, .planned 1⟩]],
      describe [],
      describe [refer (.planned 3) []],
      describe [refer (.planned 2) []]]
    [[3, 1, 0, 2], [1, 2, 3, 0]].all (respectsDependencies ds) ∧
      RefersTo ds 0 1 ∧ ¬ Relation.TransGen (RefersTo ds) 1 0 ∧
      respectsDependencies ds [0, 1, 2, 3] = false ∧
      [[3, 1, 0], [3, 1, 0, 3], [3, 1, 0, 4]].all fun order => !respectsDependencies ds order := by
  intro refer describe ds
  have refers : RefersTo ds 0 1 := ⟨_, rfl, by decide⟩
  have forward : ¬ Relation.TransGen (RefersTo ds) 1 0 := by
    intro back
    obtain ⟨_, ⟨d, found, named⟩, -⟩ := Relation.TransGen.head'_iff.mp back
    cases found
    cases named
  refine ⟨by decide, refers, forward, ?_, by decide⟩
  rw [← Bool.not_eq_true, respectsDependencies_iff]
  rintro ⟨-, ordered⟩
  exact absurd (ordered 0 1 refers (by decide) (by decide) forward) (by decide)

end TemplateCatalog
