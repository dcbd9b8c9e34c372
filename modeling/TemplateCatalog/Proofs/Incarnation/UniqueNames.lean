import TemplateCatalog.Proofs.Incarnation.Consistency

/-!
# Names that stay unique

A store that enforces unique names compares the names of new elements with one
another and with the names that the unit will have otherwise. Those come from two
sources, the stored elements that a batch leaves alone and the elements that it
modifies. A modified element belongs to the unit and has kept its name, so both
sources together give the names that the unit had before.

Results:
1. `takenName?_eq_none_iff`: when new names are accepted.
2. `name_mem_namesAfter`: no name that the unit had is missing from the comparison.
3. `Committed.namesOf_eq`: an application adds the names of new elements to the
   names of its unit, and changes none.
4. `namesApart_of_calls`: no sequence of applications brings two elements of one
   name into a unit.
-/

namespace TemplateCatalog

namespace Store

/-! ## The check of a commit -/

/-- New names are accepted if they differ from one another and from those that are taken. -/
theorem takenName?_eq_none_iff {taken names : List String} :
    takenName? taken names = none ↔ names.Nodup ∧ ∀ name ∈ names, name ∉ taken := by
  induction names generalizing taken with
  | nil => simp [takenName?]
  | cons name rest ih =>
    rw [List.nodup_cons, List.forall_mem_cons, takenName?]
    by_cases old : name ∈ taken
    · rw [if_pos (List.contains_iff_mem.mpr old)]
      exact ⟨nofun, fun ⟨_, fresh, _⟩ => absurd old fresh⟩
    · rw [if_neg fun listed => old (List.contains_iff_mem.mp listed), ih]
      constructor
      · rintro ⟨nodup, fresh⟩
        refine ⟨⟨fun again => fresh name again List.mem_cons_self, nodup⟩, old, ?_⟩
        exact fun other hother listed => fresh other hother (List.mem_cons_of_mem _ listed)
      · rintro ⟨⟨once, nodup⟩, -, fresh⟩
        refine ⟨nodup, fun other hother listed => ?_⟩
        rcases List.mem_cons.mp listed with rfl | listed
        · exact once hother
        · exact fresh other hother listed

variable {s s' : Store} {b : Batch} {e : Element} {unit : UnitId}

/-- A name that the unit has is compared with, whether or not its element is modified. -/
theorem name_mem_namesAfter
    (grown : ∀ m ∈ b.modified, ∃ x ∈ s.elements.rows, x.owner = b.unit ∧ x.Grows m)
    (he : e ∈ s.elements.rows) (owned : e.owner = b.unit) : e.name ∈ s.namesAfter b := by
  rw [namesAfter, List.map_append, List.mem_append]
  by_cases changed : e.id ∈ b.modified.map (·.id)
  · obtain ⟨m, hm, same⟩ := List.mem_map.mp changed
    obtain ⟨x, hx, -, grows⟩ := grown m hm
    cases List.inj_on_of_nodup_map s.elements.distinct_keys hx he (grows.id_eq.symm.trans same)
    exact .inr (List.mem_map.mpr ⟨m, hm, grows.name_eq⟩)
  · refine .inl (List.mem_map_of_mem (List.mem_filter.mpr ⟨he, ?_⟩))
    simpa [owned] using changed

/-! ## One application -/

/-- The names of the elements of a unit, in the order of the elements. -/
def namesOf (s : Store) (unit : UnitId) : List String :=
  (s.elements.rows.filter fun e => e.owner = unit).map (·.name)

/-- The store enforces unique names, and no two elements of one unit share a name. -/
structure NamesApart (s : Store) : Prop where
  enforced : s.uniqueNames = true
  nodup : ∀ unit, (s.namesOf unit).Nodup

theorem mem_namesOf {name : String} :
    name ∈ s.namesOf unit ↔ ∃ e ∈ s.elements.rows, e.owner = unit ∧ e.name = name := by
  simp [namesOf, and_assoc]

section

variable {a : Application} {applied : AppliedIncarnation} {ws : Workspace}

/-- Stored elements keep their owners and their names; new elements bring theirs. -/
theorem Committed.namesOf_eq (c : Committed s a applied s' ws) (unit : UnitId) :
    s'.namesOf unit =
      s.namesOf unit ++ (ws.created.filter fun e => e.owner = unit).map (·.name) := by
  have kept : ∀ e ∈ s.elements.rows,
      (Table.replacement Element.id ws.modified e).owner = e.owner ∧
        (Table.replacement Element.id ws.modified e).name = e.name := by
    intro e he
    rcases c.replacement_cases he with ⟨-, same⟩ | ⟨-, -, grown⟩
    · rw [same]
      exact ⟨rfl, rfl⟩
    · exact ⟨grown.owner_eq, grown.name_eq⟩
  unfold namesOf
  rw [c.rows, List.filter_append, List.map_append, List.filter_map, List.map_map]
  congr 1
  have owners : s.elements.rows.filter ((fun e => decide (e.owner = unit)) ∘
      Table.replacement Element.id ws.modified) =
        s.elements.rows.filter fun e => e.owner = unit :=
    List.filter_congr fun e he => by rw [Function.comp_apply, (kept e he).1]
  rw [owners]
  exact List.map_congr_left fun e he => (kept e (List.mem_of_mem_filter he)).2

/-- A successful application keeps the names of every unit apart. -/
theorem NamesApart.of_run (h : s.NamesApart) (plain : a.connection = s.connect)
    (succeeded : a.run = .ok (applied, s')) : s'.NamesApart := by
  obtain ⟨b, ws, derives, allowed, c⟩ := derives_of_run plain succeeded
  have unnamed := nameViolation?_of_violation? allowed
  rw [nameViolation?, if_pos h.enforced, Option.map_eq_none_iff, takenName?_eq_none_iff,
    derives.created] at unnamed
  obtain ⟨apart, fresh⟩ := unnamed
  have tracked := c.reached.tracked
  refine ⟨c.uniqueNames.trans h.enforced, fun unit => ?_⟩
  rw [c.namesOf_eq]
  refine List.nodup_append.mpr ⟨h.nodup unit, apart.sublist (List.filter_sublist.map _), ?_⟩
  rintro _ old name new rfl
  obtain ⟨e, he, owned, named⟩ := mem_namesOf.mp old
  obtain ⟨x, hx, same⟩ := List.mem_map.mp new
  obtain ⟨created, owned'⟩ := List.mem_filter.mp hx
  -- a new element of the unit is an element of the plan's unit, whose names were compared
  have planned : unit = b.unit := by
    rw [derives.unit, ← c.reached.connection_eq.2, ← tracked.created_owner x created]
    exact (of_decide_eq_true owned').symm
  have grown : ∀ m ∈ b.modified, ∃ x ∈ s.elements.rows, x.owner = b.unit ∧ x.Grows m := by
    intro m hm
    rw [derives.modified] at hm
    rw [derives.unit]
    exact c.reached.modified_origin c.connection hm
  have listed := name_mem_namesAfter grown he (owned.trans planned)
  rw [named] at listed
  exact fresh _ (same ▸ List.mem_map_of_mem created) listed

end

theorem NamesApart.after (h : s.NamesApart) (c : Call) : (s.after c).NamesApart := by
  unfold Store.after
  cases answer : s.applyInPlace c.graph c.domain c.plan with
  | mk result s' =>
    cases result with
    | error e =>
      cases (applyInPlace_error_iff.mp answer).2
      exact h
    | ok applied => exact h.of_run rfl (applyInPlace_ok_iff.mp answer)

/-! ## Whole runs -/

/-- Whatever plans are applied in turn, for whatever units, the names of every unit stay apart. -/
theorem namesApart_of_calls (s : Store) (h : s.NamesApart) (calls : List Call) :
    (calls.foldl after s).NamesApart := by
  induction calls generalizing s with
  | nil => exact h
  | cons c rest ih => exact ih (s.after c) (h.after c)

/-- A new process joins the stored scope, which is modified by that. Then the name of the scope and
that of the process are refused in the unit, and another unit may use them. -/
theorem namesApart_of_joined_scope :
    let domain : Domain := .ofTemplate ⟨⟨1⟩⟩ { id := ⟨⟨0⟩⟩, name := "template", version := {} }
    let scope : TemplateItem :=
      { id := ⟨⟨10⟩⟩, nspace := domain.nspace, name := "scope", elementType := .scope }
    let process : TemplateItem :=
      { id := ⟨⟨11⟩⟩, nspace := domain.nspace, name := "process", elementType := .process }
    let join : ResolvedReference :=
      { reference := ⟨⟨12⟩⟩, targetItem := scope.id, kind := .scope, target := .existing ⟨⟨3⟩⟩ }
    let s : Store := {
      units := .ofList [⟨⟨⟨2⟩⟩, "unit", [domain.id]⟩, ⟨⟨⟨5⟩⟩, "other unit", [domain.id]⟩]
      elements := .ofList [scope.toElement ⟨⟨3⟩⟩ ⟨⟨2⟩⟩ domain.id]
      uniqueNames := true }
    let calls := [
      Call.create domain ⟨⟨2⟩⟩ process ⟨⟨4⟩⟩ [join],
      Call.create domain ⟨⟨2⟩⟩ scope ⟨⟨6⟩⟩ [],
      Call.create domain ⟨⟨2⟩⟩ process ⟨⟨7⟩⟩ [join],
      Call.create domain ⟨⟨5⟩⟩ process ⟨⟨8⟩⟩ []]
    s.NamesApart ∧
      (calls.foldl after s).elements.rows.map (fun e => (e.id, e.members)) =
        [(⟨⟨3⟩⟩, [⟨⟨4⟩⟩]), (⟨⟨4⟩⟩, []), (⟨⟨8⟩⟩, [])] ∧
      (calls.foldl after s).NamesApart := by
  intro domain scope process join s calls
  have start : s.NamesApart := by
    refine ⟨rfl, fun unit => ?_⟩
    have few : s.elements.rows = [scope.toElement ⟨⟨3⟩⟩ ⟨⟨2⟩⟩ domain.id] := rfl
    rw [namesOf, few]
    exact (List.nodup_singleton _).sublist (List.filter_sublist.map _)
  exact ⟨start, by decide, namesApart_of_calls s start calls⟩

end Store

end TemplateCatalog
