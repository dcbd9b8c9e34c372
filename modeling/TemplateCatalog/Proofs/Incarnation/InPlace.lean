import TemplateCatalog.Proofs.Incarnation.Derivation

/-!
# Applying a plan to a store in place

`Application.run` gives a new store if it succeeds. Here an application is a
call on one store that is written row by row, so that the store after the call
is part of what is said even if the call fails.

Results:
1. `Store.applyInPlace_eq`: in place or not, an application gives the same.
2. `Store.derives_of_run`: a run that succeeds has written its batch, and it leaves
   what `Committed` says: stored elements in their places, changed ones replaced,
   new ones behind.
3. `Store.applyInPlace_frame`: a call that fails leaves the store as it was; one
   that succeeds adds the elements that it reports and otherwise only appends
   relations to elements of the plan's unit.
-/

namespace TemplateCatalog

namespace Store

/-- Checks a batch, then writes its rows one after the other. -/
def commitInPlace (s : Store) (b : Batch) : Except RepositoryError Unit × Store :=
  match s.violation? b with
  | some e => (.error e, s)
  | none => (.ok (), (b.modified ++ b.created).foldl insertElement s)

/-- Applies a plan; the result is the answer and the store that the call leaves. -/
def applyInPlace (s : Store) (graph : TemplateGraph) (domain : Domain) (plan : IncarnationPlan) :
    Except ApplyError AppliedIncarnation × Store :=
  let a : Application := ⟨s.connect, graph, domain, plan⟩
  match a.computeBatch with
  | .error e => (.error e, s)
  | .ok batch =>
    match s.commitInPlace batch with
    | (.error e, s') => (.error (.repository e), s')
    | (.ok (), s') => (.ok (a.report batch), s')

theorem foldl_insertElement (s : Store) (es : List Element) :
    es.foldl insertElement s = { s with elements := s.elements.putAll es } := by
  induction es generalizing s with
  | nil => rfl
  | cons e rest ih => exact ih (s.insertElement e)

/-- Nothing stands in the way of the calls of a plain store. -/
theorem connect_commit (s : Store) (b : Batch) : s.connect.commit b = s.commit b := rfl

theorem commitInPlace_eq (s : Store) (b : Batch) :
    s.commitInPlace b =
      match s.commit b with
      | .error e => (.error e, s)
      | .ok s' => (.ok (), s') := by
  unfold commitInPlace commit
  cases s.violation? b with
  | some e => rfl
  | none =>
    show (_, _) = (_, s.write b)
    rw [foldl_insertElement]
    rfl

/-- A run in place answers as a run does, and leaves the store of the run or the store before. -/
theorem applyInPlace_eq (s : Store) (graph : TemplateGraph) (domain : Domain)
    (plan : IncarnationPlan) :
    s.applyInPlace graph domain plan =
      match Application.run ⟨s.connect, graph, domain, plan⟩ with
      | .error e => (.error e, s)
      | .ok (applied, s') => (.ok applied, s') := by
  unfold applyInPlace Application.run
  cases h : Application.computeBatch ⟨s.connect, graph, domain, plan⟩ with
  | error e =>
    simp only [h]
    rfl
  | ok batch =>
    simp only [h, commitInPlace_eq, bind, Except.bind, connect_commit]
    cases s.commit batch with
    | error e => rfl
    | ok s' => rfl

theorem applyInPlace_store (s : Store) (graph : TemplateGraph) (domain : Domain)
    (plan : IncarnationPlan) :
    (s.applyInPlace graph domain plan).2 =
      match Application.computeBatch ⟨s.connect, graph, domain, plan⟩ with
      | .error _ => s
      | .ok batch => (s.commitInPlace batch).2 := by
  unfold applyInPlace
  cases h : Application.computeBatch ⟨s.connect, graph, domain, plan⟩ with
  | error e => simp only [h]
  | ok batch =>
    simp only [h]
    cases s.commitInPlace batch with
    | mk answer s' => cases answer <;> rfl

/-! ## What a commit writes -/

theorem guardViolation?_eq_none_iff {s : Store} {b : Batch} : s.guardViolation? b = none ↔
    ∀ g ∈ b.guards, ∀ e ∈ s.elementsOf b.unit b.domain, g.isViolatedBy e = false := by
  simp [guardViolation?, List.findSome?_eq_none_iff, List.find?_eq_none]

theorem nameViolation?_eq_some {s : Store} {b : Batch} {e : RepositoryError}
    (h : s.nameViolation? b = some e) : ∃ name, e = .duplicateName b.unit name := by
  unfold nameViolation? at h
  split at h
  · obtain ⟨name, -, rfl⟩ := Option.map_eq_some_iff.mp h
    exact ⟨name, rfl⟩
  · cases h

/-- Only names can stand in the way of a batch that fits the store otherwise. -/
theorem violation?_eq_nameViolation? {s : Store} {b : Batch}
    (exists_unit : s.units.contains b.unit = true)
    (fresh : ∀ e ∈ b.created, e.id ∉ s.elements.rows.map (·.id))
    (present : ∀ e ∈ b.modified, e.id ∈ s.elements.rows.map (·.id))
    (unguarded : ∀ g ∈ b.guards, ∀ e ∈ s.elementsOf b.unit b.domain, g.isViolatedBy e = false) :
    s.violation? b = s.nameViolation? b := by
  have noneExists : b.created.find? (fun e => s.elements.contains e.id) = none :=
    List.find?_eq_none.mpr fun e he known => fresh e he (Table.contains_iff.mp known)
  have noneMissing : b.modified.find? (fun e => !s.elements.contains e.id) = none := by
    refine List.find?_eq_none.mpr fun e he => ?_
    rw [Table.contains_iff.mpr (present e he)]
    exact Bool.false_ne_true
  unfold violation?
  rw [exists_unit, noneExists, noneMissing, guardViolation?_eq_none_iff.mpr unguarded]
  rfl

theorem violation?_eq_none {s : Store} {b : Batch} (h : s.violation? b = none) :
    (∀ e ∈ b.created, e.id ∉ s.elements.rows.map (·.id)) ∧
      (∀ e ∈ b.modified, e.id ∈ s.elements.rows.map (·.id)) ∧
      ∀ g ∈ b.guards, ∀ e ∈ s.elementsOf b.unit b.domain, g.isViolatedBy e = false := by
  unfold violation? at h
  split at h
  · cases h
  · obtain ⟨h, -⟩ := Option.or_eq_none_iff.mp h
    obtain ⟨h, unguarded⟩ := Option.or_eq_none_iff.mp h
    obtain ⟨noneExists, noneMissing⟩ := Option.or_eq_none_iff.mp h
    rw [Option.map_eq_none_iff, List.find?_eq_none] at noneExists noneMissing
    refine ⟨fun e he known => ?_, fun e he => ?_, guardViolation?_eq_none_iff.mp unguarded⟩
    · exact noneExists e he (Table.contains_iff.mpr known)
    · have present := noneMissing e he
      rw [Bool.not_eq_true', Bool.not_eq_false] at present
      exact Table.contains_iff.mp present

theorem nameViolation?_of_violation? {s : Store} {b : Batch} (h : s.violation? b = none) :
    s.nameViolation? b = none := by
  unfold violation? at h
  split at h
  · cases h
  · exact (Option.or_eq_none_iff.mp h).2

theorem rows_write {s : Store} {b : Batch} (h : s.violation? b = none)
    (created_ids : (b.created.map (·.id)).Nodup) (modified_ids : (b.modified.map (·.id)).Nodup) :
    (s.write b).elements.rows =
      s.elements.rows.map (Table.replacement Element.id b.modified) ++ b.created := by
  obtain ⟨fresh, present, -⟩ := violation?_eq_none h
  have replaced := Table.rows_putAll_of_mem present modified_ids
  -- replacing rows keeps all identifiers, so what was new before is new after
  have ids : (s.elements.putAll b.modified).rows.map Element.id =
      s.elements.rows.map Element.id := by
    rw [replaced, List.map_map]
    exact List.map_congr_left fun e _ => Table.key_replacement b.modified e
  show (s.elements.putAll (b.modified ++ b.created)).rows = _
  rw [Table.putAll_append, Table.rows_putAll_of_not_mem, replaced]
  · intro e he
    rw [ids]
    exact fresh e he
  · exact created_ids

/-- What a successful application leaves, for the workspace that it reached. -/
structure Committed (s : Store) (a : Application) (applied : AppliedIncarnation) (s' : Store)
    (ws : Workspace) : Prop where
  connection : a.connection = s.connect
  sameDomain : a.plan.domain = a.domain.id
  reached : a.Reached ws
  creates : List.Forall₂ a.Creates
    (a.plan.inCreationOrder.filter (·.disposition.isCreate)) ws.created
  wired : ∃ start, a.Instantiates start ∧ a.wireAll start a.plan.inCreationOrder = .ok ws
  fresh : ∀ e ∈ ws.created, e.id ∉ s.elements.rows.map (·.id)
  units : s'.units = s.units
  uniqueNames : s'.uniqueNames = s.uniqueNames
  rows : s'.elements.rows =
    s.elements.rows.map (Table.replacement Element.id ws.modified) ++ ws.created
  created : applied.created = ws.created.map (·.id)
  modified : applied.modified = ws.modified.map (·.id)

/-- A run that succeeds has written the batch of its workspace, and nothing stood in the way. -/
theorem derives_of_run {s s' : Store} {a : Application} {applied : AppliedIncarnation}
    (plain : a.connection = s.connect) (h : a.run = .ok (applied, s')) :
    ∃ b ws, a.Derives ws b ∧ s.violation? b = none ∧ Committed s a applied s' ws := by
  unfold Application.run at h
  obtain ⟨batch, computed, h⟩ := except_bind_eq_ok.mp h
  rw [plain, connect_commit] at h
  unfold commit at h
  cases violated : s.violation? batch with
  | some e =>
    rw [violated] at h
    cases h
  | none =>
    rw [violated] at h
    cases h
    obtain ⟨ws, derives⟩ := Application.computeBatch_derives computed
    have tracked := derives.reached.tracked
    have rows := rows_write violated (derives.created ▸ tracked.created_ids)
      (derives.modified ▸ tracked.modified_ids)
    rw [derives.created, derives.modified] at rows
    refine ⟨batch, ws, derives, violated, plain, derives.sameDomain, derives.reached, ?_,
      derives.wired, ?_, rfl, rfl, rows, ?_, ?_⟩
    · rw [← derives.created]
      exact derives.creates
    · rw [← derives.created]
      exact (violation?_eq_none violated).1
    · rw [← derives.created]
      rfl
    · rw [← derives.modified]
      rfl

theorem committed_of_run {s s' : Store} {a : Application} {applied : AppliedIncarnation}
    (plain : a.connection = s.connect) (h : a.run = .ok (applied, s')) :
    ∃ ws, Committed s a applied s' ws := by
  obtain ⟨-, ws, -, -, committed⟩ := derives_of_run plain h
  exact ⟨ws, committed⟩

section

variable {s s' : Store} {graph : TemplateGraph} {domain : Domain} {plan : IncarnationPlan}
  {applied : AppliedIncarnation} {e : ApplyError}

theorem applyInPlace_error_iff :
    s.applyInPlace graph domain plan = (.error e, s') ↔
      Application.run ⟨s.connect, graph, domain, plan⟩ = .error e ∧ s' = s := by
  rw [applyInPlace_eq]
  cases Application.run ⟨s.connect, graph, domain, plan⟩ with
  | error x => simp [eq_comm]
  | ok result => simp

theorem applyInPlace_ok_iff :
    s.applyInPlace graph domain plan = (.ok applied, s') ↔
      Application.run ⟨s.connect, graph, domain, plan⟩ = .ok (applied, s') := by
  rw [applyInPlace_eq]
  cases Application.run ⟨s.connect, graph, domain, plan⟩ with
  | error x => simp
  | ok result => simp [Prod.ext_iff]

theorem applyInPlace_of_answer (h : (s.applyInPlace graph domain plan).1 = .ok applied) :
    s.applyInPlace graph domain plan = (.ok applied, (s.applyInPlace graph domain plan).2) := by
  rw [← h]

theorem applyInPlace_ok (h : s.applyInPlace graph domain plan = (.ok applied, s')) :
    ∃ ws, Committed s ⟨s.connect, graph, domain, plan⟩ applied s' ws :=
  committed_of_run rfl (applyInPlace_ok_iff.mp h)

end

/-! ## The frame -/

/-- A stored element stays as it is, or it is an element of the unit that grows. -/
theorem Committed.replacement_cases {s s' : Store} {a : Application}
    {applied : AppliedIncarnation} {ws : Workspace} (c : Committed s a applied s' ws) {e : Element}
    (he : e ∈ s.elements.rows) :
    e.id ∉ ws.modified.map (·.id) ∧ Table.replacement Element.id ws.modified e = e ∨
      Table.replacement Element.id ws.modified e ∈ ws.modified ∧ e.owner = a.plan.unit ∧
        e.Grows (Table.replacement Element.id ws.modified e) := by
  unfold Table.replacement
  cases found : ws.modified.find? fun m => m.id = e.id with
  | none =>
    refine .inl ⟨fun listed => ?_, rfl⟩
    obtain ⟨m, hm, hid⟩ := List.mem_map.mp listed
    exact List.find?_eq_none.mp found m hm (decide_eq_true hid)
  | some m =>
    have hm : m ∈ ws.modified := List.mem_of_find?_eq_some found
    have hid : m.id = e.id := by simpa using List.find?_some found
    obtain ⟨x, hx, owned, grown⟩ := c.reached.modified_origin c.connection hm
    -- the stored element that grew is the one at hand, since they share an identifier
    have same : x.id = e.id := grown.id_eq.symm.trans hid
    cases List.inj_on_of_nodup_map s.elements.distinct_keys hx he same
    exact .inr ⟨hm, owned, grown⟩

section

variable {s s' : Store} {a : Application} {applied : AppliedIncarnation} {ws : Workspace}
  {e : Element}

/-- Every stored element is still there, and it has grown at most. -/
theorem Committed.grows (c : Committed s a applied s' ws) (he : e ∈ s.elements.rows) :
    ∃ e' ∈ s'.elements.rows, e.Grows e' := by
  refine ⟨Table.replacement Element.id ws.modified e, ?_, ?_⟩
  · rw [c.rows]
    exact List.mem_append_left _ (List.mem_map_of_mem he)
  · rcases c.replacement_cases he with ⟨-, same⟩ | ⟨-, -, grown⟩
    · rw [same]
      exact .refl e
    · exact grown

theorem Committed.mem_rows (c : Committed s a applied s' ws) (he : e ∈ s'.elements.rows) :
    e ∈ ws.created ∨ e ∈ ws.modified ∨ e ∈ s.elements.rows := by
  rw [c.rows] at he
  rcases List.mem_append.mp he with replaced | new
  · obtain ⟨x, hx, rfl⟩ := List.mem_map.mp replaced
    rcases c.replacement_cases hx with ⟨-, same⟩ | ⟨changed, -⟩
    · rw [same]
      exact .inr (.inr hx)
    · exact .inr (.inl changed)
  · exact .inl new

end

/-- What an application for a unit changes in a store. -/
structure Frame (s : Store) (unit : UnitId) (applied : AppliedIncarnation) (s' : Store) :
    Prop where
  units : s'.units = s.units
  uniqueNames : s'.uniqueNames = s.uniqueNames
  /-- New elements stand behind all others, in the order in which they are reported. -/
  ids : s'.elements.rows.map (·.id) = s.elements.rows.map (·.id) ++ applied.created
  fresh : ∀ id ∈ applied.created, id ∉ s.elements.rows.map (·.id)
  modified : ∀ id ∈ applied.modified, id ∈ s.elements.rows.map (·.id)
  /-- Stored elements keep their places; only modified elements of the unit grow. -/
  rows : ∀ (i : Nat) (e : Element), s.elements.rows[i]? = some e →
    ∃ e', s'.elements.rows[i]? = some e' ∧ (e.id ∉ applied.modified → e' = e) ∧
      (e.id ∈ applied.modified → e.owner = unit ∧ e.Grows e')

theorem Committed.frame {s s' : Store} {a : Application} {applied : AppliedIncarnation}
    {ws : Workspace} (c : Committed s a applied s' ws) : s.Frame a.plan.unit applied s' := by
  refine ⟨c.units, c.uniqueNames, ?_, ?_, ?_, ?_⟩
  · rw [c.rows, c.created, List.map_append, List.map_map]
    congr 1
    exact List.map_congr_left fun e _ => Table.key_replacement ws.modified e
  · intro id hid
    rw [c.created] at hid
    obtain ⟨e, he, rfl⟩ := List.mem_map.mp hid
    exact c.fresh e he
  · intro id hid
    rw [c.modified] at hid
    obtain ⟨m, hm, rfl⟩ := List.mem_map.mp hid
    obtain ⟨x, hx, -, grown⟩ := c.reached.modified_origin c.connection hm
    rw [grown.id_eq]
    exact List.mem_map_of_mem hx
  · intro i e hi
    have he : e ∈ s.elements.rows := List.mem_of_getElem? hi
    refine ⟨Table.replacement Element.id ws.modified e, ?_, ?_⟩
    · rw [c.rows, List.getElem?_append_left, List.getElem?_map, hi]
      · rfl
      · rw [List.length_map]
        exact (List.getElem?_eq_some_iff.mp hi).1
    · rw [c.modified]
      rcases c.replacement_cases he with ⟨unlisted, same⟩ | ⟨listed, owned, grown⟩
      · exact ⟨fun _ => same, fun listed => absurd listed unlisted⟩
      · refine ⟨fun unlisted => absurd ?_ unlisted, fun _ => ⟨owned, grown⟩⟩
        have hid : (Table.replacement Element.id ws.modified e).id = e.id :=
          Table.key_replacement ws.modified e
        rw [← hid]
        exact List.mem_map_of_mem listed

/-- An application leaves the store as it was, or it changes no more than `Frame` says. -/
theorem applyInPlace_frame (s : Store) (graph : TemplateGraph) (domain : Domain)
    (plan : IncarnationPlan) :
    match s.applyInPlace graph domain plan with
    | (.error e, s') =>
      Application.run ⟨s.connect, graph, domain, plan⟩ = .error e ∧ s' = s
    | (.ok applied, s') =>
      Application.run ⟨s.connect, graph, domain, plan⟩ = .ok (applied, s') ∧
        s.Frame plan.unit applied s' := by
  split
  · next failed => exact applyInPlace_error_iff.mp failed
  · next succeeded =>
    obtain ⟨ws, committed⟩ := applyInPlace_ok succeeded
    exact ⟨applyInPlace_ok_iff.mp succeeded, committed.frame⟩

end Store

end TemplateCatalog
