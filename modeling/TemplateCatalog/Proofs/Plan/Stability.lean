import Mathlib.Data.List.Lex
import TemplateCatalog.Proofs.Plan.Precedence

/-!
# The creation order is stable

The order does not depend on how it is computed. Which position is placed can be
told from the references and from what was placed before (`IsNext`), so ties go
to the lower position. If no circles have to be broken, this makes the order the
first one in lexicographic order that creates targets before their origins: where
another such order departs from it, the other one places a position that was
ready and was not the least.

Results:
1. `IsNext.of_next`: the position that a step places is told by the references.
2. `creationOrder_le`: no order that creates targets first comes before it.
3. `creationOrder_stable`: every position is the next one; without circles the order
   is the least one that creates targets first, and without references that of the
   plan.
-/

namespace TemplateCatalog

namespace CreationOrder

variable {ds : List IncarnationDescription} {placed order : List Nat} {a b i m n : Nat}

/-! ## The rule -/

/-- The plan has the position, and it is not placed. -/
def Waits (ds : List IncarnationDescription) (placed : List Nat) (n : Nat) : Prop :=
  n < ds.length ∧ n ∉ placed

/-- All positions to which the description refers are placed, apart from its own. -/
def IsReady (ds : List IncarnationDescription) (placed : List Nat) (n : Nat) : Prop :=
  ∀ t, RefersTo ds n t → t < ds.length → t ≠ n → t ∈ placed

/-- References lead from each of the positions to the other. -/
def SameCircle (ds : List IncarnationDescription) (a b : Nat) : Prop :=
  Relation.ReflTransGen (RefersTo ds) a b ∧ Relation.ReflTransGen (RefersTo ds) b a

/-- What waits on the circle of the position refers to nothing that waits elsewhere. -/
def IsSource (ds : List IncarnationDescription) (placed : List Nat) (n : Nat) : Prop :=
  ∀ m t, SameCircle ds n m → Waits ds placed m → RefersTo ds m t → Waits ds placed t →
    SameCircle ds n t

/-- Of the positions that wait the least one that is ready, or if none is, the least one on a
circle that refers to nothing else that waits. -/
def IsNext (ds : List IncarnationDescription) (placed : List Nat) (n : Nat) : Prop :=
  IsLeast {m | Waits ds placed m ∧ IsReady ds placed m} n ∨
    (∀ m, Waits ds placed m → ¬ IsReady ds placed m) ∧
      IsLeast {m | Waits ds placed m ∧ IsSource ds placed m} n

theorem IsNext.le_of_ready (h : IsNext ds placed n) (waits : Waits ds placed m)
    (ready : IsReady ds placed m) : n ≤ m := by
  obtain least | ⟨none, -⟩ := h
  · exact least.2 ⟨waits, ready⟩
  · exact absurd ready (none m waits)

/-! ## What dependencies say of references -/

theorem mem_left_iff : n ∈ (Dependencies.ofDescriptions ds).left placed ↔ Waits ds placed n := by
  rw [Dependencies.mem_left, Dependencies.ofDescriptions_size, Waits]

theorem ready_iff : (Dependencies.ofDescriptions ds).Ready placed n ↔ IsReady ds placed n := by
  unfold Dependencies.Ready IsReady
  simp only [Dependencies.mem_targetsOf_ofDescriptions, and_imp]
  exact forall_congr' fun t => ⟨fun h refers inside other => h refers other inside,
    fun h refers other inside => h refers inside other⟩

/-- Only positions outside the plan and references of a description to itself are no
dependencies. -/
theorem led_iff (hb : b < ds.length) : Relation.ReflTransGen (RefersTo ds) a b ↔
    a = b ∨ (Dependencies.ofDescriptions ds).LeadsTo a b := by
  constructor
  · intro led
    induction led using Relation.ReflTransGen.head_induction_on with
    | refl => exact .inl rfl
    | @head a c refers _ ih =>
      by_cases same : c = a
      · exact same ▸ ih
      -- whatever leads on is a position of the plan
      have inside : c < ds.length := by
        rcases ih with rfl | leads
        · exact hb
        · obtain ⟨_, step, -⟩ := Relation.TransGen.head'_iff.mp leads
          obtain ⟨⟨d, found, -⟩, -⟩ := Dependencies.mem_targetsOf_ofDescriptions.mp step
          exact (List.getElem?_eq_some_iff.mp found).1
      have step := Dependencies.mem_targetsOf_ofDescriptions.mpr ⟨refers, same, inside⟩
      refine .inr ?_
      rcases ih with rfl | leads
      · exact .single step
      · exact .head step leads
  · rintro (rfl | leads)
    · exact .refl
    · exact (Dependencies.leadsTo_ofDescriptions leads).to_reflTransGen

theorem mem_circle_iff (ha : a < ds.length) (hb : b < ds.length) :
    b ∈ ((Dependencies.ofDescriptions ds).circles[a]?).getD [] ↔ SameCircle ds a b := by
  have inside := Dependencies.ofDescriptions_size ds
  rw [Dependencies.mem_circle_iff (Dependencies.ofDescriptions_bounded ds) (inside.symm ▸ ha),
    SameCircle, led_iff ha, led_iff hb, inside]
  constructor
  · rintro ⟨-, rfl | ⟨there, back⟩⟩
    · exact ⟨.inl rfl, .inl rfl⟩
    · exact ⟨.inr there, .inr back⟩
  · rintro ⟨rfl | there, back⟩
    · exact ⟨hb, .inl rfl⟩
    · exact ⟨hb, back.imp_right fun back => ⟨there, back⟩⟩

theorem enterable_iff (hn : n < ds.length) :
    (Dependencies.ofDescriptions ds).Enterable placed n ↔ IsSource ds placed n := by
  unfold Dependencies.Enterable Dependencies.isUnfed
  simp only [List.all_eq_true, List.mem_filter, Bool.or_eq_true, List.contains_iff_mem,
    Bool.not_eq_true', ← Bool.not_eq_true, and_imp]
  constructor
  · intro unfed m t circle ⟨hm, unplaced⟩ refers ⟨ht, waits⟩
    by_cases same : t = m
    · exact same ▸ circle
    have target := Dependencies.mem_targetsOf_ofDescriptions.mpr ⟨refers, same, ht⟩
    have fed := unfed m ((mem_circle_iff hn hm).mpr circle) unplaced t target
    exact (mem_circle_iff hn ht).mp (fed.resolve_left waits)
  · intro source m circle unplaced t target
    obtain ⟨refers, other, ht⟩ := Dependencies.mem_targetsOf_ofDescriptions.mp target
    by_cases waits : t ∈ placed
    · exact .inl waits
    have hm : m < ds.length := by
      obtain ⟨d, found, -⟩ := refers
      exact (List.getElem?_eq_some_iff.mp found).1
    exact .inr ((mem_circle_iff hn ht).mpr (source m t ((mem_circle_iff hn hm).mp circle)
      ⟨hm, unplaced⟩ refers ⟨ht, waits⟩))

theorem IsNext.of_next (h : (Dependencies.ofDescriptions ds).Next placed n) :
    IsNext ds placed n := by
  have ready : {m | m ∈ (Dependencies.ofDescriptions ds).left placed ∧
      (Dependencies.ofDescriptions ds).Ready placed m} =
        {m | Waits ds placed m ∧ IsReady ds placed m} :=
    Set.ext fun m => and_congr mem_left_iff ready_iff
  have source : {m | m ∈ (Dependencies.ofDescriptions ds).left placed ∧
      (Dependencies.ofDescriptions ds).Enterable placed m} =
        {m | Waits ds placed m ∧ IsSource ds placed m} :=
    Set.ext fun m => (and_congr_left' mem_left_iff).trans
      (and_congr_right fun waits => enterable_iff waits.1)
  unfold Dependencies.Next at h
  rw [ready, source] at h
  refine h.imp_right (And.imp_left fun none m waits => ?_)
  exact ready_iff.not.mp (none m (mem_left_iff.mpr waits))

theorem isNext (ds : List IncarnationDescription) (hn : (creationOrder ds)[i]? = some n) :
    IsNext ds ((creationOrder ds).take i) n := by
  obtain ⟨p, reached, placed⟩ := Dependencies.place_reached
    (g := Dependencies.ofDescriptions ds) .nil (Dependencies.ofDescriptions ds).size
  have same : creationOrder ds = p.placed := placed
  rw [same] at hn ⊢
  exact .of_next (reached.next hn)

/-! ## Other orders -/

/-- The order holds every position once, and targets before their origins. -/
structure TargetsFirst (ds : List IncarnationDescription) (order : List Nat) : Prop where
  perm : order.Perm (List.range ds.length)
  before : ∀ o t, RefersTo ds o t → t < ds.length → t ≠ o → order.idxOf t < order.idxOf o

theorem idxOf_of_perm (perm : order.Perm (List.range ds.length)) (hn : order[i]? = some n) :
    order.idxOf n = i := by
  obtain ⟨inside, rfl⟩ := List.getElem?_eq_some_iff.mp hn
  exact (perm.nodup_iff.mpr List.nodup_range).idxOf_getElem i inside

/-- What stands behind a place of an order has waited there. -/
theorem waits_of_le (perm : order.Perm (List.range ds.length)) {j : Nat} (behind : i ≤ j)
    (hn : order[j]? = some n) : Waits ds (order.take i) n := by
  have listed := List.mem_of_getElem? hn
  refine ⟨List.mem_range.mp (perm.mem_iff.mp listed), ?_⟩
  intro earlier
  rw [List.mem_take_iff_idxOf_lt listed, idxOf_of_perm perm hn] at earlier
  exact Nat.not_lt.mpr behind earlier

theorem TargetsFirst.isReady (h : TargetsFirst ds order) (hn : order[i]? = some n) :
    IsReady ds (order.take i) n := by
  intro t refers inside other
  have listed : t ∈ order := h.perm.mem_iff.mpr (List.mem_range.mpr inside)
  rw [List.mem_take_iff_idxOf_lt listed, ← idxOf_of_perm h.perm hn]
  exact h.before n t refers inside other

theorem creationOrder_le (h : TargetsFirst ds order) : creationOrder ds ≤ order := by
  refine not_lt.mp ?_
  intro less
  have length : order.length = (creationOrder ds).length :=
    (h.perm.trans (creationOrder_perm ds).symm).length_eq
  rcases List.lt_iff_exists.mp less with ⟨-, shorter⟩ | ⟨i, hi, hi', same, less⟩
  · exact absurd length shorter.ne
  have sameBefore : (creationOrder ds).take i = order.take i := by
    refine List.ext_getElem (by simp [length]) fun j hj _ => ?_
    rw [List.length_take] at hj
    simpa using (same j (by omega)).symm
  -- where the orders part, the other one goes on with a position that is ready here
  have next := isNext ds (List.getElem?_eq_getElem hi')
  rw [sameBefore] at next
  have found : order[i]? = some order[i] := List.getElem?_eq_getElem hi
  have least : (creationOrder ds)[i] ≤ order[i] :=
    next.le_of_ready (waits_of_le h.perm (Nat.le_refl i) found) (h.isReady found)
  exact Nat.not_lt.mpr least less

theorem targetsFirst_of_acyclic (acyclic : ∀ a b, SameCircle ds a b → a = b) :
    TargetsFirst ds (creationOrder ds) := by
  refine ⟨creationOrder_perm ds, ?_⟩
  intro o t refers inside other
  have ordered : (Dependencies.ofDescriptions ds).Ordered (creationOrder ds) :=
    Dependencies.place_ordered (Dependencies.ofDescriptions_bounded ds) .nil
  have placed : o ∈ creationOrder ds := by
    obtain ⟨d, found, -⟩ := refers
    exact (creationOrder_perm ds).mem_iff.mpr
      (List.mem_range.mpr (List.getElem?_eq_some_iff.mp found).1)
  refine ordered.idxOf_lt (creationOrder_nodup ds) placed ?_ ?_
  · exact Dependencies.mem_targetsOf_ofDescriptions.mpr ⟨refers, other, inside⟩
  · intro leads
    have back := (Dependencies.leadsTo_ofDescriptions leads).to_reflTransGen
    exact other (acyclic t o ⟨back, .single refers⟩)

theorem eq_range_of_no_references (none : ∀ o t, RefersTo ds o t → t < ds.length → t = o) :
    creationOrder ds = List.range ds.length := by
  have perm := creationOrder_perm ds
  have sorted : (creationOrder ds).Pairwise (· ≤ ·) := by
    refine List.pairwise_iff_getElem.mpr ?_
    intro i j hi hj less
    have waits := waits_of_le perm less.le (List.getElem?_eq_getElem hj)
    have ready : IsReady ds ((creationOrder ds).take i) (creationOrder ds)[j] := by
      intro t refers inside other
      exact absurd (none _ t refers inside) other
    exact (isNext ds (List.getElem?_eq_getElem hi)).le_of_ready waits ready
  exact perm.eq_of_pairwise' sorted List.pairwise_le_range

end CreationOrder

/-- The position that is placed is the least one that is ready, or else the least one on a circle
that refers to nothing else that is left. Without circles no other order that creates targets first
comes before this one, and without references it is the order of the plan. -/
theorem creationOrder_stable (ds : List IncarnationDescription) :
    (creationOrder ds).Perm (List.range ds.length) ∧
    (∀ i n, (creationOrder ds)[i]? = some n →
      CreationOrder.IsNext ds ((creationOrder ds).take i) n) ∧
    ((∀ a b, CreationOrder.SameCircle ds a b → a = b) →
      IsLeast {order | CreationOrder.TargetsFirst ds order} (creationOrder ds)) ∧
    ((∀ o t, RefersTo ds o t → t < ds.length → t = o) →
      creationOrder ds = List.range ds.length) := by
  refine ⟨creationOrder_perm ds, ?_, ?_, CreationOrder.eq_range_of_no_references⟩
  · intro i n hn
    exact CreationOrder.isNext ds hn
  · intro acyclic
    refine ⟨CreationOrder.targetsFirst_of_acyclic acyclic, ?_⟩
    intro order first
    exact CreationOrder.creationOrder_le first

/-- The first of three descriptions refers to the last one, which refers to itself. The one in the
middle is ready from the start, so it comes before both. If it is on a circle with the last one,
nothing is ready, and the circle comes first to which the first one refers. -/
theorem creationOrder_stable_of_chain :
    let refer (n : Nat) : ResolvedReference :=
      { reference := ⟨⟨20⟩⟩, targetItem := ⟨⟨10⟩⟩, kind := .part, target := .planned n }
    let describe (references : List ResolvedReference) : IncarnationDescription :=
      { item := ⟨⟨10⟩⟩, requested := true, disposition := .create ⟨⟨50⟩⟩ false, references }
    let ds := [describe [refer 2], describe [], describe [refer 2]]
    let circle := [describe [refer 2], describe [refer 2], describe [refer 1]]
    creationOrder ds = [1, 2, 0] ∧ (∀ a b, CreationOrder.SameCircle ds a b → a = b) ∧
      CreationOrder.IsNext ds [1] 2 ∧
      IsLeast {order | CreationOrder.TargetsFirst ds order} [1, 2, 0] ∧
      creationOrder circle = [1, 2, 0] ∧ CreationOrder.IsNext circle [] 1 := by
  intro refer describe ds circle
  have order : creationOrder ds = [1, 2, 0] := by decide
  have order' : creationOrder circle = [1, 2, 0] := by decide
  have only {a b : Nat} (refers : RefersTo ds a b) : b = 2 := by
    obtain ⟨d, found, named⟩ := refers
    match a with
    | 0 | 2 =>
      cases found
      simpa [refer, describe, IncarnationDescription.targets, ResolvedReference.targets] using named
    | 1 =>
      cases found
      cases named
    | a + 3 => cases found
  have led {a b : Nat} (h : Relation.ReflTransGen (RefersTo ds) a b) : a = b ∨ b = 2 := by
    cases h with
    | refl => exact .inl rfl
    | tail _ last => exact .inr (only last)
  have acyclic : ∀ a b, CreationOrder.SameCircle ds a b → a = b := by
    rintro a b ⟨there, back⟩
    rcases led there with same | rfl
    · exact same
    · exact (led back).elim Eq.symm id
  obtain ⟨-, next, least, -⟩ := creationOrder_stable ds
  obtain ⟨-, next', -⟩ := creationOrder_stable circle
  rw [order] at next least
  rw [order'] at next'
  exact ⟨order, acyclic, next 1 2 rfl, least acyclic, order', next' 0 1 rfl⟩

end TemplateCatalog
