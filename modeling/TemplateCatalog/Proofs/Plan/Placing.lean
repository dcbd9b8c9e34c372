import Mathlib.Data.List.Sort
import Mathlib.Data.List.TakeWhile
import Mathlib.Order.Bounds.Defs
import TemplateCatalog.Plan.CreationOrder
import TemplateCatalog.Proofs.Collections

/-!
# Bookkeeping of a placing

A placing counts what positions miss and queues those that miss nothing. Neither
is worked out anew, so both have to be right after every step (`Tracks`): the
counts are those of the dependencies that are not placed, and of the positions
that are left the queue holds exactly those that are ready. Positions that are
placed may stand in the queue, since they are skipped.

So the position that a step places can be told without the bookkeeping (`Next`):
it is the least one that is ready, or if there is none the least one whose circle
nothing feeds that is left.

Results:
1. `Dependencies.Tracks.put`: placing a position keeps counts and queue right.
2. `Dependencies.Tracks.step`, `Dependencies.stuck`: a step places the next position,
   and fails only if no circle can be entered.
3. `Dependencies.Reached.next`: in a placing that is reached from the start every
   position was the next one.
-/

namespace TemplateCatalog

/-! ## The queue -/

section

variable {q : List Nat} {m n : Nat}

theorem enqueue_eq : enqueue n q = q.orderedInsert (· ≤ ·) n := by
  induction q with
  | nil => rfl
  | cons m rest ih => rw [enqueue, List.orderedInsert_cons, ih]

theorem mem_enqueue : m ∈ enqueue n q ↔ m = n ∨ m ∈ q := by
  rw [enqueue_eq, List.mem_orderedInsert]

theorem enqueue_pairwise (h : q.Pairwise (· ≤ ·)) : (enqueue n q).Pairwise (· ≤ ·) := by
  rw [enqueue_eq]
  exact h.orderedInsert n q

/-- What the queue is searched for stays in it while others are dropped. -/
theorem mem_dropWhile {skip : Nat → Bool} (hm : m ∈ q) (kept : skip m = false) :
    m ∈ q.dropWhile skip := by
  rw [← List.takeWhile_append_dropWhile (p := skip) (l := q)] at hm
  refine (List.mem_append.mp hm).resolve_left fun dropped => ?_
  rw [List.mem_takeWhile_imp dropped] at kept
  cases kept

end

/-! ## Releasing -/

namespace Placing

variable {p : Placing} {ns : List Nat} {m n : Nat}

theorem release_missing :
    (p.release n).missing[m]? = if m = n then (p.missing[m]?).map (· - 1) else p.missing[m]? := by
  rw [release, List.getElem?_modify]
  by_cases same : m = n
  · simp [same]
  · simp [same, Ne.symm same]

theorem mem_release_ready : m ∈ (p.release n).ready ↔
    m ∈ p.ready ∨ m = n ∧ (p.release n).missing[m]? = some 0 ∧ m ∉ p.placed := by
  have ready : (p.release n).ready =
      if (p.release n).missing[n]? = some 0 ∧ n ∉ p.placed then enqueue n p.ready else p.ready := by
    simp [release]
  rw [ready]
  split
  · next joins =>
    rw [mem_enqueue, or_comm]
    exact or_congr_right ⟨fun same => ⟨same, same ▸ joins⟩, fun h => h.1⟩
  · next stays =>
    refine (or_iff_left ?_).symm
    rintro ⟨rfl, joins⟩
    exact stays joins

theorem release_sorted (h : p.ready.Pairwise (· ≤ ·)) :
    (p.release n).ready.Pairwise (· ≤ ·) := by
  simp only [release]
  split
  · exact enqueue_pairwise h
  · exact h

/-- Different positions are released independently of one another. -/
theorem foldl_release (nodup : ns.Nodup) :
    (ns.foldl release p).placed = p.placed ∧
      (∀ m, (ns.foldl release p).missing[m]? =
        if m ∈ ns then (p.missing[m]?).map (· - 1) else p.missing[m]?) ∧
      (∀ m, m ∈ (ns.foldl release p).ready ↔
        m ∈ p.ready ∨ m ∈ ns ∧ (ns.foldl release p).missing[m]? = some 0 ∧ m ∉ p.placed) := by
  induction ns generalizing p with
  | nil => simp
  | cons n rest ih =>
    obtain ⟨fresh, nodup⟩ := List.nodup_cons.mp nodup
    obtain ⟨placed, missing, ready⟩ := ih (p := p.release n) nodup
    have others {m : Nat} (hm : m ∈ rest) : m ≠ n := fun same => fresh (same ▸ hm)
    rw [List.foldl_cons]
    refine ⟨placed, ?_, ?_⟩
    · intro m
      rw [missing, release_missing]
      by_cases hm : m ∈ rest
      · simp [hm, others hm]
      · simp [hm]
    · intro m
      rw [ready, mem_release_ready, or_assoc, List.mem_cons, or_and_right]
      refine or_congr_right (or_congr_left (and_congr_right ?_))
      rintro rfl
      rw [missing, if_neg fresh]

theorem foldl_release_sorted (h : p.ready.Pairwise (· ≤ ·)) :
    (ns.foldl release p).ready.Pairwise (· ≤ ·) := by
  induction ns generalizing p with
  | nil => exact h
  | cons n rest ih => exact ih (release_sorted h)

end Placing

namespace Dependencies

variable {g : Dependencies} {p p' : Placing} {placed : List Nat} {m n : Nat}

/-! ## What comes next -/

/-- The positions that are left. -/
def left (g : Dependencies) (placed : List Nat) : List Nat :=
  g.positions.filter fun n => !placed.contains n

theorem mem_left : n ∈ g.left placed ↔ n < g.size ∧ n ∉ placed := by
  simp [left, positions]

/-- All that the position depends on is placed. -/
def Ready (g : Dependencies) (placed : List Nat) (n : Nat) : Prop :=
  ∀ t ∈ g.targetsOf n, t ∈ placed

/-- The circle of the position can be entered. -/
def Enterable (g : Dependencies) (placed : List Nat) (n : Nat) : Prop :=
  g.isUnfed placed ((g.circles[n]?).getD []) = true

/-- Of the positions that are left the least one that is ready, or if none is, the least one whose
circle nothing feeds that is left. -/
def Next (g : Dependencies) (placed : List Nat) (n : Nat) : Prop :=
  IsLeast {m | m ∈ g.left placed ∧ g.Ready placed m} n ∨
    (∀ m ∈ g.left placed, ¬ g.Ready placed m) ∧
      IsLeast {m | m ∈ g.left placed ∧ g.Enterable placed m} n

theorem Next.isLeft (h : g.Next placed n) : n ∈ g.left placed := by
  obtain ready | ⟨-, enterable⟩ := h
  · exact ready.1.1
  · exact enterable.1.1

theorem enters_iff {circles : List (List Nat)} :
    (!placed.contains n && g.isUnfed placed ((circles[n]?).getD [])) = true ↔
      n ∉ placed ∧ g.isUnfed placed ((circles[n]?).getD []) = true := by
  simp

theorem entry?_eq_some (h : g.entry? g.circles placed = some n) :
    IsLeast {m | m ∈ g.left placed ∧ g.Enterable placed m} n := by
  obtain ⟨enters, inside, first⟩ := List.find?_range_eq_some.mp h
  obtain ⟨unplaced, enterable⟩ := enters_iff.mp enters
  refine ⟨⟨mem_left.mpr ⟨List.mem_range.mp inside, unplaced⟩, enterable⟩, ?_⟩
  rintro m ⟨left, enterable⟩
  refine Nat.not_lt.mp fun less => ?_
  have skipped := (Bool.not_eq_true' _).mp (first m less)
  exact Bool.eq_false_iff.mp skipped (enters_iff.mpr ⟨(mem_left.mp left).2, enterable⟩)

theorem entry?_eq_none (h : g.entry? g.circles placed = none) :
    ∀ n ∈ g.left placed, ¬ g.Enterable placed n := by
  intro n left enterable
  obtain ⟨inside, unplaced⟩ := mem_left.mp left
  exact List.find?_eq_none.mp h n (List.mem_range.mpr inside) (enters_iff.mpr ⟨unplaced, enterable⟩)

/-! ## Counts -/

/-- What the position depends on and is not placed. -/
def lacks (g : Dependencies) (placed : List Nat) (n : Nat) : List Nat :=
  (distinct (g.targetsOf n)).filter fun t => !placed.contains t

theorem mem_lacks {t : Nat} : t ∈ g.lacks placed n ↔ t ∈ g.targetsOf n ∧ t ∉ placed := by
  simp [lacks, mem_distinct]

theorem lacks_eq_nil_iff : g.lacks placed n = [] ↔ g.Ready placed n := by
  simp only [List.eq_nil_iff_forall_not_mem, mem_lacks, not_and, Decidable.not_not, Ready]

/-- Placing a position spares those that depend on it one. -/
theorem length_lacks_snoc (unplaced : n ∉ placed) : (g.lacks (placed ++ [n]) m).length =
    if n ∈ g.targetsOf m then (g.lacks placed m).length - 1 else (g.lacks placed m).length := by
  have nodup : (g.lacks placed m).Nodup := (distinct_nodup _).filter _
  have spared : g.lacks (placed ++ [n]) m = (g.lacks placed m).erase n := by
    rw [nodup.erase_eq_filter, lacks, lacks, List.filter_filter]
    refine List.filter_congr fun t _ => ?_
    simp [bne, Bool.and_comm, beq_eq_decide]
  rw [spared, List.length_erase]
  simp [mem_lacks, unplaced]

/-! ## Placing a position -/

theorem mem_dependents : m ∈ g.dependents n ↔ m < g.size ∧ n ∈ g.targetsOf m := by
  simp [dependents, positions]

theorem dependents_nodup (g : Dependencies) (n : Nat) : (g.dependents n).Nodup :=
  List.nodup_range.filter _

theorem put_placed : (g.put p n).placed = p.placed ++ [n] :=
  (Placing.foldl_release (g.dependents_nodup n)).1

theorem put_missing (hm : m < g.size) : (g.put p n).missing[m]? =
    if n ∈ g.targetsOf m then (p.missing[m]?).map (· - 1) else p.missing[m]? := by
  obtain ⟨-, missing, -⟩ := Placing.foldl_release
    (p := { p with placed := p.placed ++ [n] }) (g.dependents_nodup n)
  refine (missing m).trans ?_
  simp only [mem_dependents, hm, true_and]

theorem mem_put_ready : m ∈ (g.put p n).ready ↔ m ∈ p.ready ∨
    (m < g.size ∧ n ∈ g.targetsOf m) ∧ (g.put p n).missing[m]? = some 0 ∧
      m ∉ p.placed ++ [n] := by
  obtain ⟨-, -, ready⟩ := Placing.foldl_release
    (p := { p with placed := p.placed ++ [n] }) (g.dependents_nodup n)
  rw [← mem_dependents]
  exact ready m

/-- Counts and queue are right. -/
structure Tracks (g : Dependencies) (p : Placing) : Prop where
  missing : ∀ n < g.size, p.missing[n]? = some (g.lacks p.placed n).length
  ready : ∀ n, n ∉ p.placed → (n ∈ p.ready ↔ n < g.size ∧ g.Ready p.placed n)
  sorted : p.ready.Pairwise (· ≤ ·)

namespace Tracks

theorem start : g.Tracks g.start := by
  have all (n : Nat) : g.lacks [] n = distinct (g.targetsOf n) :=
    List.filter_eq_self.mpr fun _ _ => rfl
  refine ⟨?_, ?_, ?_⟩
  · intro n hn
    simp [Dependencies.start, positions, hn, inDegree, all]
  · intro n _
    simp [Dependencies.start, positions, inDegree, ← lacks_eq_nil_iff, all]
  · exact List.pairwise_le_range.filter _

theorem put (h : g.Tracks p) (unplaced : n ∉ p.placed) {ready : List Nat}
    (sorted : ready.Pairwise (· ≤ ·))
    (others : ∀ m, m ∉ p.placed → m ≠ n → (m ∈ ready ↔ m ∈ p.ready)) :
    g.Tracks (g.put { p with ready } n) := by
  have missing {m : Nat} (hm : m < g.size) :
      (g.put { p with ready } n).missing[m]? = some (g.lacks (p.placed ++ [n]) m).length := by
    rw [put_missing hm, h.missing m hm, length_lacks_snoc unplaced, Option.map_some, apply_ite some]
  have spared {m : Nat} (hm : m < g.size) :
      (g.put { p with ready } n).missing[m]? = some 0 ↔ g.Ready (p.placed ++ [n]) m := by
    rw [missing hm, ← lacks_eq_nil_iff, Option.some.injEq, List.length_eq_zero_iff]
  refine ⟨?_, ?_, Placing.foldl_release_sorted sorted⟩
  · intro m hm
    rw [put_placed]
    exact missing hm
  intro m hm
  rw [put_placed] at hm ⊢
  obtain ⟨old, other⟩ : m ∉ p.placed ∧ m ≠ n := by simpa using hm
  rw [mem_put_ready, others m old other, h.ready m old]
  constructor
  · rintro (⟨inside, all⟩ | ⟨⟨inside, -⟩, none, -⟩)
    · exact ⟨inside, fun t ht => List.mem_append_left _ (all t ht)⟩
    · exact ⟨inside, (spared inside).mp none⟩
  · rintro ⟨inside, all⟩
    by_cases depends : n ∈ g.targetsOf m
    · exact .inr ⟨⟨inside, depends⟩, (spared inside).mpr all, hm⟩
    · -- it does not depend on what is placed, so it was ready before
      refine .inl ⟨inside, fun t ht => (List.mem_append.mp (all t ht)).resolve_right fun last => ?_⟩
      exact depends (List.mem_singleton.mp last ▸ ht)

/-- The first of the queue that is not placed is the least one that is ready. -/
theorem next_of_queue (h : g.Tracks p) {ready : List Nat}
    (found : p.ready.dropWhile p.placed.contains = n :: ready) :
    IsLeast {m | m ∈ g.left p.placed ∧ g.Ready p.placed m} n ∧
      g.Tracks (g.put { p with ready } n) := by
  have unplaced : n ∉ p.placed := by
    have kept := List.head?_dropWhile_not p.placed.contains p.ready
    rw [found] at kept
    simpa using kept
  have sub : (n :: ready).Sublist p.ready := found ▸ List.dropWhile_sublist _
  have sorted := List.pairwise_cons.mp (h.sorted.sublist sub)
  have queued {m : Nat} (hm : m ∉ p.placed) (waits : m ∈ p.ready) : m ∈ n :: ready :=
    found ▸ mem_dropWhile waits (by simpa using hm)
  refine ⟨⟨?_, ?_⟩, h.put unplaced sorted.2 ?_⟩
  · obtain ⟨inside, all⟩ := (h.ready n unplaced).mp (sub.subset List.mem_cons_self)
    exact ⟨mem_left.mpr ⟨inside, unplaced⟩, all⟩
  · rintro m ⟨left, all⟩
    obtain ⟨inside, hm⟩ := mem_left.mp left
    rcases List.mem_cons.mp (queued hm ((h.ready m hm).mpr ⟨inside, all⟩)) with rfl | behind
    · exact Nat.le_refl m
    · exact sorted.1 m behind
  · intro m hm other
    constructor
    · intro behind
      exact sub.subset (List.mem_cons_of_mem _ behind)
    · intro waits
      exact (List.mem_cons.mp (queued hm waits)).resolve_left other

/-- A step places what comes next. -/
theorem step (h : g.Tracks p) (stepped : g.step? g.circles p = some p') :
    ∃ n, g.Next p.placed n ∧ p'.placed = p.placed ++ [n] ∧ g.Tracks p' := by
  unfold step? at stepped
  split at stepped
  · next n ready found =>
    cases stepped
    obtain ⟨least, tracks⟩ := h.next_of_queue found
    exact ⟨n, .inl least, put_placed, tracks⟩
  · next found =>
    obtain ⟨n, entry, rfl⟩ := Option.map_eq_some_iff.mp stepped
    have least := entry?_eq_some entry
    obtain ⟨-, unplaced⟩ := mem_left.mp least.1.1
    have empty {m : Nat} (hm : m ∉ p.placed) : m ∉ p.ready := by
      intro waits
      have queued : m ∈ p.ready.dropWhile p.placed.contains :=
        mem_dropWhile waits (by simpa using hm)
      rw [found] at queued
      cases queued
    have none_ready : ∀ m ∈ g.left p.placed, ¬ g.Ready p.placed m := by
      intro m left all
      obtain ⟨inside, hm⟩ := mem_left.mp left
      exact empty hm ((h.ready m hm).mpr ⟨inside, all⟩)
    refine ⟨n, .inr ⟨none_ready, least⟩, put_placed, h.put unplaced .nil ?_⟩
    intro m hm _
    exact iff_of_false List.not_mem_nil (empty hm)

end Tracks

/-- A step fails only if no circle can be entered. -/
theorem stuck (h : g.step? g.circles p = none) :
    ∀ n ∈ g.left p.placed, ¬ g.Enterable p.placed n := by
  unfold step? at h
  split at h
  · cases h
  · exact entry?_eq_none (Option.map_eq_none_iff.mp h)

/-! ## Runs -/

/-- The placings that steps lead to. -/
inductive Reached (g : Dependencies) : Placing → Prop
  | nil : Reached g g.start
  | snoc {p p' : Placing} : Reached g p → g.step? g.circles p = some p' → Reached g p'

theorem place_reached (h : g.Reached p) (count : Nat) :
    ∃ p', g.Reached p' ∧ g.place g.circles count p = p'.placed := by
  induction count generalizing p with
  | zero => exact ⟨p, h, rfl⟩
  | succ count ih =>
    unfold place
    split
    · next p' stepped => exact ih (h.snoc stepped)
    · exact ⟨p, h, rfl⟩

namespace Reached

theorem tracks (h : g.Reached p) : g.Tracks p := by
  induction h with
  | nil => exact .start
  | snoc _ stepped ih =>
    obtain ⟨_, _, _, tracks⟩ := ih.step stepped
    exact tracks

/-- Each position came next when those before it were placed. -/
theorem next (h : g.Reached p) {i : Nat} (hn : p.placed[i]? = some n) :
    g.Next (p.placed.take i) n := by
  induction h with
  | nil => cases hn
  | @snoc p p' before stepped ih =>
    obtain ⟨m, next, placed, -⟩ := before.tracks.step stepped
    rw [placed] at hn ⊢
    rcases Nat.lt_or_ge i p.placed.length with old | new
    · rw [List.getElem?_append_left old] at hn
      rw [List.take_append_of_le_length old.le]
      exact ih hn
    · rw [List.getElem?_append_right new, List.getElem?_singleton] at hn
      split at hn
      · next last =>
        cases hn
        rw [Nat.le_antisymm (Nat.sub_eq_zero_iff_le.mp last) new, List.take_left']
        · exact next
        · rfl
      · cases hn

theorem inside (h : g.Reached p) : ∀ n ∈ p.placed, n < g.size := by
  intro n hn
  obtain ⟨i, found⟩ := List.mem_iff_getElem?.mp hn
  exact (mem_left.mp (h.next found).isLeft).1

theorem nodup (h : g.Reached p) : p.placed.Nodup := by
  induction h with
  | nil => exact List.nodup_nil
  | snoc before stepped ih =>
    obtain ⟨n, next, placed, -⟩ := before.tracks.step stepped
    rw [placed]
    exact nodup_append_singleton ih (mem_left.mp next.isLeft).2

end Reached

end Dependencies

end TemplateCatalog
