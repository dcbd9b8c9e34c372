import Mathlib.Data.List.Forall2
import Mathlib.Data.List.Nodup
import Mathlib.Data.List.Sort
import TemplateCatalog.Collections.Dictionary
import TemplateCatalog.Collections.DistinctList
import TemplateCatalog.Collections.Table
import TemplateCatalog.Model.Id

/-!
# Collections: what look-ups and bulk writes do

Results:
1. `Dictionary.get?_eq_some_iff`, `Dictionary.ext_get?`: look-ups tell the entries, and with
   them the dictionary.
2. `mem_distinct`, `distinct_nodup`: dropping repetitions loses no value.
3. `sortIds_sublist`: the sorted identifiers of some keep their order among more.
4. `nodup_map_append_singleton`: a list of distinct keys may grow by a new key.
5. `find?_of_nodup`, `position_of_nodup`, `Table.get?_eq_some_iff`: a look-up by a
   distinct key finds exactly what has the key.
6. `Table.rows_putAll_of_mem`, `Table.rows_putAll_of_not_mem`: rows with known
   keys are replaced in place, rows with new keys are appended in order.
7. `except_bind_eq_ok`: a sequence succeeds exactly if each of its steps does.
8. `FailsOnly.bind`: a sequence fails only as its steps do.
-/

namespace TemplateCatalog

/-! ## Results that may be errors -/

theorem except_bind_eq_ok {ε α β : Type} {x : Except ε α} {f : α → Except ε β} {b : β} :
    (x >>= f) = .ok b ↔ ∃ a, x = .ok a ∧ f a = .ok b := by
  cases x with
  | error e => simp [bind, Except.bind]
  | ok a => simp [bind, Except.bind]

theorem except_map_eq_ok {ε α β : Type} {x : Except ε α} {f : α → β} {b : β} :
    x.map f = .ok b ↔ ∃ a, x = .ok a ∧ f a = b := by
  cases x with
  | error e => simp [Except.map]
  | ok a => simp [Except.map]

theorem except_toOption_eq_some {ε α : Type} {x : Except ε α} {a : α} :
    x.toOption = some a ↔ x = .ok a := by
  cases x with
  | error e => simp [Except.toOption]
  | ok a => simp [Except.toOption]

/-- The errors of a result, if it is one, are of a kind. -/
def FailsOnly {ε α : Type} (P : ε → Prop) (x : Except ε α) : Prop := ∀ e, x = .error e → P e

theorem FailsOnly.bind {ε α β : Type} {P : ε → Prop} {x : Except ε α} {f : α → Except ε β}
    (h : FailsOnly P x) (rest : ∀ a, x = .ok a → FailsOnly P (f a)) : FailsOnly P (x >>= f) := by
  cases x with
  | error e => exact fun e' same => h e' (congrArg Except.error (Except.error.inj same))
  | ok a => exact rest a rfl

theorem FailsOnly.map {ε α β : Type} {P : ε → Prop} {x : Except ε α} (h : FailsOnly P x)
    (f : α → β) : FailsOnly P (x.map f) := by
  cases x with
  | error e => exact fun e' same => h e' (congrArg Except.error (Except.error.inj same))
  | ok a => exact fun _ => nofun

theorem FailsOnly.error {ε α : Type} {P : ε → Prop} {e : ε} (h : P e) :
    FailsOnly P (.error e : Except ε α) :=
  fun _ same => Except.error.inj same ▸ h

theorem FailsOnly.of_ok {ε α : Type} {P : ε → Prop} {x : Except ε α} {a : α} (h : x = .ok a) :
    FailsOnly P x :=
  fun _ failed => nomatch h.symm.trans failed

/-! ## Dictionaries -/

namespace Dictionary

variable {α : Type} {d d' : Dictionary α} {key : String} {value : α}

theorem get?_eq_some_iff : d.get? key = some value ↔ (key, value) ∈ d.entries := by
  constructor
  · intro h
    obtain ⟨before, after, split, -⟩ := List.lookup_eq_some_iff.mp h
    rw [split]
    exact List.mem_append_right _ List.mem_cons_self
  · intro h
    obtain ⟨before, after, split⟩ := List.append_of_mem h
    refine List.lookup_eq_some_iff.mpr ⟨before, after, split, fun e he => ?_⟩
    have sorted := d.sorted
    rw [split] at sorted
    have less := (List.pairwise_append.mp sorted).2.2 e he (key, value) List.mem_cons_self
    simpa using fun same : key = e.1 => String.lt_irrefl _ (same ▸ less)

theorem get?_of_isEmpty (h : d.isEmpty = true) : d.get? key = none := by
  unfold get?
  rw [List.isEmpty_iff.mp h]
  rfl

/-- Sorted entries are determined by what they give for every key. -/
theorem ext_get? (h : ∀ key, d.get? key = d'.get? key) : d = d' := by
  have nodup (d : Dictionary α) : d.entries.Nodup := by
    refine d.sorted.imp fun {a b} less same => ?_
    rw [same] at less
    exact String.lt_irrefl _ less
  have perm : d.entries.Perm d'.entries := by
    refine (List.perm_ext_iff_of_nodup (nodup d) (nodup d')).mpr fun ⟨key, value⟩ => ?_
    rw [← get?_eq_some_iff, ← get?_eq_some_iff, h]
  refine Dictionary.ext (perm.eq_of_pairwise ?_ d.sorted d'.sorted)
  exact fun a b _ _ less less' => absurd less' (String.lt_asymm less)

/-- The entries whose values pass a test. -/
def filter (d : Dictionary α) (p : α → Bool) : Dictionary α :=
  ⟨d.entries.filter fun e => p e.2, d.sorted.filter _⟩

theorem get?_filter (p : α → Bool) : (d.filter p).get? key = (d.get? key).filter p := by
  refine Option.ext fun value => ?_
  rw [get?_eq_some_iff, Option.filter_eq_some_iff, get?_eq_some_iff]
  exact List.mem_filter

end Dictionary

/-! ## Lists that grow at their end -/

theorem nodup_append_singleton {α : Type} {as : List α} {a : α} (distinct : as.Nodup)
    (fresh : a ∉ as) : (as ++ [a]).Nodup := by
  rw [← List.concat_eq_append]
  exact List.Nodup.concat fresh distinct

theorem nodup_map_append_singleton {α κ : Type} {key : α → κ} {as : List α} {a : α}
    (distinct : (as.map key).Nodup) (fresh : key a ∉ as.map key) :
    ((as ++ [a]).map key).Nodup := by
  rw [List.map_append]
  exact nodup_append_singleton distinct fresh

/-! ## Lists side by side -/

theorem forall₂_comp {α β γ : Type} {R : α → β → Prop} {S : β → γ → Prop} {T : α → γ → Prop}
    (comp : ∀ a b c, R a b → S b c → T a c) {as : List α} {bs : List β} {cs : List γ}
    (h : List.Forall₂ R as bs) (h' : List.Forall₂ S bs cs) : List.Forall₂ T as cs := by
  induction h generalizing cs with
  | nil =>
    cases h'
    exact .nil
  | cons first _ ih =>
    cases h' with
    | cons second rest => exact .cons (comp _ _ _ first second) (ih rest)

theorem forall₂_mem_right {α β : Type} {R : α → β → Prop} {as : List α} {bs : List β}
    (h : List.Forall₂ R as bs) {b : β} (hb : b ∈ bs) : ∃ a ∈ as, R a b := by
  induction h with
  | nil => cases hb
  | cons first _ ih =>
    rcases List.mem_cons.mp hb with rfl | hb
    · exact ⟨_, List.mem_cons_self, first⟩
    · obtain ⟨a, ha, related⟩ := ih hb
      exact ⟨a, List.mem_cons_of_mem _ ha, related⟩

/-! ## Lists without repetition -/

namespace DistinctList

variable {α : Type} [DecidableEq α]

theorem mem_push {xs : DistinctList α} {a b : α} :
    b ∈ (xs.push a).toList ↔ b ∈ xs.toList ∨ b = a := by
  rw [toList_push]
  split
  · next present =>
    refine ⟨.inl, ?_⟩
    rintro (h | rfl)
    · exact h
    · exact present
  · simp

theorem mem_append {xs : DistinctList α} {as : List α} {b : α} :
    b ∈ (xs.append as).toList ↔ b ∈ xs.toList ∨ b ∈ as := by
  induction as generalizing xs with
  | nil => simp [append]
  | cons a rest ih =>
    have step : (xs.append (a :: rest)).toList = ((xs.push a).append rest).toList := rfl
    rw [step, ih, mem_push, List.mem_cons, or_assoc]

theorem mem_ofList {as : List α} {b : α} : b ∈ (ofList as).toList ↔ b ∈ as := by
  rw [ofList, mem_append]
  simp [empty]

end DistinctList

theorem mem_distinct {α : Type} [DecidableEq α] {as : List α} {a : α} : a ∈ distinct as ↔ a ∈ as :=
  DistinctList.mem_ofList

theorem distinct_nodup {α : Type} [DecidableEq α] (as : List α) : (distinct as).Nodup :=
  (DistinctList.ofList as).nodup

/-! ## Sorted identifiers -/

theorem nodup_eraseDups {α : Type} [DecidableEq α] (as : List α) : as.eraseDups.Nodup := by
  match as with
  | [] => exact List.nodup_nil
  | a :: rest =>
    rw [List.eraseDups_cons, List.nodup_cons]
    refine ⟨fun again => ?_, nodup_eraseDups _⟩
    simpa using List.mem_eraseDups.mp again
termination_by as.length
decreasing_by exact Nat.lt_succ_of_le (List.length_filter_le _ _)

section SortIds

variable {kind : IdKind} {ids ids' : List (Id kind)}

theorem mem_sortIds {id : Id kind} : id ∈ sortIds ids ↔ id ∈ ids := by
  rw [sortIds, List.mem_mergeSort, List.mem_eraseDups]

theorem sortIds_nodup (ids : List (Id kind)) : (sortIds ids).Nodup :=
  (List.mergeSort_perm _ _).nodup_iff.mpr (nodup_eraseDups ids)

theorem Id.le_iff {a b : Id kind} : Id.le a b = true ↔ a.uuid.bits.toNat ≤ b.uuid.bits.toNat :=
  decide_eq_true_iff

theorem Id.le_antisymm {a b : Id kind} (ab : Id.le a b = true) (ba : Id.le b a = true) :
    a = b := by
  have same : a.uuid.bits.toNat = b.uuid.bits.toNat :=
    Nat.le_antisymm (Id.le_iff.mp ab) (Id.le_iff.mp ba)
  exact Id.ext (Uuid.ext (BitVec.eq_of_toNat_eq same))

theorem sortIds_pairwise (ids : List (Id kind)) :
    (sortIds ids).Pairwise fun a b => Id.le a b = true := by
  refine List.pairwise_mergeSort (fun a b c ab bc => ?_) (fun a b => ?_) _
  · exact Id.le_iff.mpr (Nat.le_trans (Id.le_iff.mp ab) (Id.le_iff.mp bc))
  · rw [Bool.or_eq_true, Id.le_iff, Id.le_iff]
    exact Nat.le_total _ _

theorem sortIds_sublist (h : ids ⊆ ids') : (sortIds ids).Sublist (sortIds ids') := by
  have antisymm : Std.Antisymm fun a b : Id kind => Id.le a b = true :=
    ⟨fun _ _ => Id.le_antisymm⟩
  have among : sortIds ids ⊆ sortIds ids' :=
    fun _ member => mem_sortIds.mpr (h (mem_sortIds.mp member))
  exact List.sublist_of_subperm_of_pairwise (List.subperm_of_subset (sortIds_nodup ids) among)
    (sortIds_pairwise ids) (sortIds_pairwise ids')

end SortIds

/-! ## Look-ups by distinct keys -/

theorem find?_of_nodup {α κ : Type} [DecidableEq κ] {key : α → κ} {as : List α} {a : α}
    (distinct : (as.map key).Nodup) (ha : a ∈ as) :
    as.find? (fun b => key b = key a) = some a := by
  cases found : as.find? fun b => key b = key a with
  | none => simpa using List.find?_eq_none.mp found a ha
  | some b =>
    have hb : b ∈ as := List.mem_of_find?_eq_some found
    have hkey : key b = key a := by simpa using List.find?_some found
    rw [List.inj_on_of_nodup_map distinct hb ha hkey]

/-- A distinct key stands at one position only. -/
theorem position_of_nodup {α κ : Type} {key : α → κ} {as : List α} {i j : Nat} {a b : α}
    (distinct : (as.map key).Nodup) (ha : as[i]? = some a) (hb : as[j]? = some b)
    (same : key a = key b) : i = j := by
  have ha' : (as.map key)[i]? = some (key a) := by rw [List.getElem?_map, ha, Option.map_some]
  have hb' : (as.map key)[j]? = some (key a) := by
    rw [List.getElem?_map, hb, Option.map_some, same]
  have inside : i < (as.map key).length := (List.getElem?_eq_some_iff.mp ha').1
  exact (List.getElem?_inj inside distinct).mp (ha'.trans hb'.symm)

/-! ## Tables -/

namespace Table

variable {α κ : Type} {key : α → κ} [DecidableEq κ]

theorem get?_eq_none_iff {t : Table key} {k : κ} : t.get? k = none ↔ k ∉ t.rows.map key := by
  simp [get?, List.find?_eq_none]

theorem get?_eq_some_iff {t : Table key} {k : κ} {a : α} :
    t.get? k = some a ↔ a ∈ t.rows ∧ key a = k := by
  constructor
  · intro h
    exact ⟨List.mem_of_find?_eq_some h, by simpa using List.find?_some h⟩
  · rintro ⟨ha, rfl⟩
    exact find?_of_nodup t.distinct_keys ha

theorem contains_iff {t : Table key} {k : κ} : t.contains k = true ↔ k ∈ t.rows.map key := by
  rw [contains, Option.isSome_iff_ne_none, ne_eq, get?_eq_none_iff, not_not]

theorem putRow_of_not_mem {a : α} {rows : List α} (h : key a ∉ rows.map key) :
    putRow key a rows = rows ++ [a] := by
  induction rows with
  | nil => rfl
  | cons b rest ih =>
    rw [List.map_cons, List.mem_cons, not_or] at h
    rw [putRow, if_neg fun e => h.1 e.symm, ih h.2, List.cons_append]

theorem putRow_of_mem {a : α} {rows : List α} (h : key a ∈ rows.map key)
    (distinct : (rows.map key).Nodup) :
    putRow key a rows = rows.map fun b => if key b = key a then a else b := by
  induction rows with
  | nil => simp at h
  | cons b rest ih =>
    obtain ⟨hb, hrest⟩ := List.nodup_cons.mp distinct
    by_cases hk : key b = key a
    · have others : rest.map (fun c => if key c = key a then a else c) = rest := by
        conv => rhs; rw [← List.map_id rest]
        refine List.map_congr_left fun c hc => if_neg fun e => hb ?_
        exact hk.trans e.symm ▸ List.mem_map_of_mem hc
      rw [putRow, if_pos hk, List.map_cons, if_pos hk, others]
    · have hmem : key a ∈ rest.map key := (List.mem_cons.mp h).resolve_left fun e => hk e.symm
      rw [putRow, if_neg hk, List.map_cons, if_neg hk, ih hmem hrest]

theorem putAll_append (t : Table key) (as bs : List α) :
    t.putAll (as ++ bs) = (t.putAll as).putAll bs :=
  List.foldl_append

/-- The row of some rows that has the key of another, else that other. -/
def replacement (key : α → κ) (as : List α) (b : α) : α :=
  (as.find? fun a => key a = key b).getD b

theorem key_replacement (as : List α) (b : α) : key (replacement key as b) = key b := by
  rw [replacement]
  cases hf : as.find? fun a => key a = key b with
  | none => rfl
  | some a => simpa using List.find?_some hf

theorem replacement_cons (a : α) {as : List α} (h : key a ∉ as.map key) (b : α) :
    replacement key as (if key b = key a then a else b) = replacement key (a :: as) b := by
  by_cases hk : key b = key a
  · have gone : as.find? (fun c => key c = key a) = none := by
      refine List.find?_eq_none.mpr fun c hc => ?_
      simpa using fun e : key c = key a => h (e ▸ List.mem_map_of_mem hc)
    simp [replacement, hk, gone]
  · have hk' : ¬ key a = key b := fun e => hk e.symm
    simp [replacement, hk, hk']

/-- Rows whose keys are present are replaced where they stand. -/
theorem rows_putAll_of_mem {t : Table key} {as : List α}
    (present : ∀ a ∈ as, key a ∈ t.rows.map key) (distinct : (as.map key).Nodup) :
    (t.putAll as).rows = t.rows.map (replacement key as) := by
  induction as generalizing t with
  | nil => exact (List.map_id t.rows).symm
  | cons a rest ih =>
    obtain ⟨ha, hrest⟩ := List.nodup_cons.mp distinct
    have hput : (t.put a).rows = t.rows.map fun b => if key b = key a then a else b :=
      putRow_of_mem (present a List.mem_cons_self) t.distinct_keys
    have hkeys : (t.put a).rows.map key = t.rows.map key := by
      rw [put, map_key_putRow, if_pos (present a List.mem_cons_self)]
    have hstep : t.putAll (a :: rest) = (t.put a).putAll rest := rfl
    rw [hstep, ih (fun b hb => hkeys ▸ present b (List.mem_cons_of_mem _ hb)) hrest, hput,
      List.map_map]
    exact List.map_congr_left fun b _ => replacement_cons a ha b

/-- Rows whose keys are new are appended in order. -/
theorem rows_putAll_of_not_mem {t : Table key} {as : List α}
    (fresh : ∀ a ∈ as, key a ∉ t.rows.map key) (distinct : (as.map key).Nodup) :
    (t.putAll as).rows = t.rows ++ as := by
  induction as generalizing t with
  | nil => exact (List.append_nil t.rows).symm
  | cons a rest ih =>
    obtain ⟨ha, hrest⟩ := List.nodup_cons.mp distinct
    have hput : (t.put a).rows = t.rows ++ [a] := putRow_of_not_mem (fresh a List.mem_cons_self)
    have hstep : t.putAll (a :: rest) = (t.put a).putAll rest := rfl
    have hfresh : ∀ b ∈ rest, key b ∉ (t.put a).rows.map key := by
      intro b hb
      rw [hput, List.map_append, List.mem_append, not_or]
      refine ⟨fresh b (List.mem_cons_of_mem _ hb), ?_⟩
      simpa using fun e : key b = key a => ha (e ▸ List.mem_map_of_mem hb)
    rw [hstep, ih hfresh hrest, hput, List.append_assoc, List.singleton_append]

end Table

end TemplateCatalog
