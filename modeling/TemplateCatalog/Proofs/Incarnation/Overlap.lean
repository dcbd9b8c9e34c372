import TemplateCatalog.Proofs.Incarnation.Consistency

/-!
# Calls that overlap

A call computes its batch from the store and then commits it. Here two calls
take turns at one store, phase by phase, in any order. A batch holds whole copies
of the elements that it modifies, and a commit checks that they exist, not that
they still are as they were read. So a copy can be old when it is written.

Results:
1. `Store.Call.advance_twice`: two phases in a row are one application.
2. `Store.Survives.step`: whatever the other call does, what a batch has committed
   only grows, unless the other batch was computed before.
3. `Store.race_keeps`: if both calls succeed, what either one has modified is
   there with all its relations, unless the batches overlapped.
4. `Store.overlapping_race_loses_member`: then relations of one call can be lost.
-/

namespace TemplateCatalog

/-- New and modified elements have identifiers of their own. -/
structure Batch.Distinct (b : Batch) : Prop where
  created : (b.created.map (·.id)).Nodup
  modified : (b.modified.map (·.id)).Nodup

theorem Application.distinct_of_computeBatch {a : Application} {b : Batch}
    (h : a.computeBatch = .ok b) : b.Distinct := by
  obtain ⟨ws, derives⟩ := computeBatch_derives h
  have tracked := derives.reached.tracked
  exact ⟨derives.created ▸ tracked.created_ids, derives.modified ▸ tracked.modified_ids⟩

namespace Store

/-! ## One commit -/

section

variable {s : Store} {b : Batch} {e m : Element}

/-- What a batch modifies is there as the batch has it. -/
theorem modified_of_write (distinct : b.Distinct) (allowed : s.violation? b = none)
    (hm : m ∈ b.modified) : m ∈ (s.write b).elements.rows := by
  obtain ⟨-, present, -⟩ := violation?_eq_none allowed
  obtain ⟨e, he, same⟩ := List.mem_map.mp (present m hm)
  have replaced : Table.replacement Element.id b.modified e = m := by
    rw [Table.replacement, same, find?_of_nodup distinct.modified hm]
    rfl
  rw [rows_write allowed distinct.created distinct.modified]
  exact List.mem_append_left _ (List.mem_map.mpr ⟨e, he, replaced⟩)

/-- What a batch does not modify stays. -/
theorem untouched_of_write (distinct : b.Distinct) (allowed : s.violation? b = none)
    (he : e ∈ s.elements.rows) (unlisted : e.id ∉ b.modified.map (·.id)) :
    e ∈ (s.write b).elements.rows := by
  have kept : Table.replacement Element.id b.modified e = e := by
    have notThere : b.modified.find? (fun m => m.id = e.id) = none :=
      List.find?_eq_none.mpr fun m hm same =>
        unlisted (List.mem_map.mpr ⟨m, hm, of_decide_eq_true same⟩)
    rw [Table.replacement, notThere]
    rfl
  rw [rows_write allowed distinct.created distinct.modified]
  exact List.mem_append_left _ (List.mem_map.mpr ⟨e, he, kept⟩)

end

/-! ## The phases of a call -/

/-- How far a call has come. -/
inductive Stage where
  | ready
  | computed (batch : Batch)
  | committed (batch : Batch)
  | failed (e : ApplyError)
  deriving DecidableEq

namespace Call

variable (c : Call) (s : Store)

def on : Application := ⟨s.connect, c.graph, c.domain, c.plan⟩

/-- The next phase of a call, with the store that it leaves. -/
def advance : Stage → Stage × Store
  | .ready =>
    match (c.on s).computeBatch with
    | .error e => (.failed e, s)
    | .ok batch => (.computed batch, s)
  | .computed batch =>
    match s.commitInPlace batch with
    | (.error e, s') => (.failed (.repository e), s')
    | (.ok (), s') => (.committed batch, s')
  | .committed batch => (.committed batch, s)
  | .failed e => (.failed e, s)

/-- The answer of a call that is through. -/
def answer? : Stage → Option (Except ApplyError AppliedIncarnation)
  | .ready | .computed _ => none
  | .committed batch => some (.ok ((c.on s).report batch))
  | .failed e => some (.error e)

/-- The phases of a call that nobody interrupts are one application. -/
theorem advance_twice : ∃ stage,
    c.advance (c.advance s .ready).2 (c.advance s .ready).1 = (stage, s.after c) ∧
      c.answer? s stage = some (s.applyInPlace c.graph c.domain c.plan).1 := by
  have phases : s.applyInPlace c.graph c.domain c.plan =
      match (c.on s).computeBatch with
      | .error e => (.error e, s)
      | .ok batch =>
        match s.commitInPlace batch with
        | (.error e, s') => (.error (.repository e), s')
        | (.ok (), s') => (.ok ((c.on s).report batch), s') := rfl
  rw [after, phases]
  cases computed : (c.on s).computeBatch with
  | error e => exact ⟨.failed e, by simp [advance, computed, answer?]⟩
  | ok batch =>
    cases written : s.commitInPlace batch with
    | mk answer s' =>
      cases answer with
      | error e => exact ⟨.failed (.repository e), by simp [advance, computed, written, answer?]⟩
      | ok _ => exact ⟨.committed batch, by simp [advance, computed, written, answer?]⟩

/-- What one phase can do. -/
inductive Step : Stage → Stage × Store → Prop
  | compute {b : Batch} : (c.on s).computeBatch = .ok b → Step .ready (.computed b, s)
  | commit {b : Batch} : s.violation? b = none → Step (.computed b) (.committed b, s.write b)
  | done {b : Batch} : Step (.committed b) (.committed b, s)
  | fail {stage : Stage} {e : ApplyError} :
    (∀ b, stage ≠ .committed b) → Step stage (.failed e, s)

theorem step_advance (stage : Stage) : c.Step s stage (c.advance s stage) := by
  cases stage with
  | ready =>
    unfold advance
    cases computed : (c.on s).computeBatch with
    | error e => exact .fail fun _ => nofun
    | ok batch => exact .compute computed
  | computed batch =>
    simp only [advance, commitInPlace_eq, Store.commit]
    cases violated : s.violation? batch with
    | some e => exact .fail fun _ => nofun
    | none => exact .commit violated
  | committed batch => exact .done
  | failed e => exact .fail fun _ => nofun

end Call

/-- The batch that a call has computed. -/
def Stage.batch? : Stage → Option Batch
  | .computed b | .committed b => some b
  | .ready | .failed _ => none

def Stage.Distinct (stage : Stage) : Prop := ∀ b, stage.batch? = some b → b.Distinct

section

variable {c : Call} {s s' : Store} {stage stage' : Stage} {b : Batch} {e m : Element}

theorem Stage.Distinct.step (h : stage.Distinct) (step : c.Step s stage (stage', s')) :
    stage'.Distinct := by
  cases step with
  | compute computed =>
    intro b hb
    cases hb
    exact Application.distinct_of_computeBatch computed
  | commit => exact h
  | done => exact h
  | fail => exact fun _ => nofun

/-- A batch goes on from the elements of the store that it is computed from. -/
theorem grows_of_computeBatch (h : (c.on s).computeBatch = .ok b) (he : e ∈ s.elements.rows)
    (hm : m ∈ b.modified) (same : m.id = e.id) : e.Grows m := by
  obtain ⟨ws, derives⟩ := Application.computeBatch_derives h
  rw [derives.modified] at hm
  obtain ⟨x, hx, -, grown⟩ := derives.reached.modified_origin rfl hm
  cases List.inj_on_of_nodup_map s.elements.distinct_keys hx he (grown.id_eq.symm.trans same)
  exact grown

/-! ## What one call does to the batch of another -/

/-- What becomes of an element that a batch has modified, once it is committed, while another call
is at a stage. -/
inductive Survives (overlap : Prop) (m : Element) (s : Store) (other : Stage) : Prop where
  /-- It is there with its relations, and a batch that the other call is about to commit goes on
  from it, unless the batches overlap. -/
  | kept {e : Element} (there : e ∈ s.elements.rows) (grown : m.Grows e)
      (pending : ∀ b, other = .computed b →
        overlap ∨ ∀ x ∈ b.modified, x.id = m.id → m.Grows x)
  /-- The batches overlap, and the other call has replaced it. -/
  | replaced {b : Batch} {x : Element} (overlaps : overlap) (committed : other = .committed b)
      (listed : x ∈ b.modified) (same : x.id = m.id) (there : x ∈ s.elements.rows)

theorem Survives.mono {overlap overlap' : Prop} (h : Survives overlap m s stage)
    (weaker : overlap → overlap') : Survives overlap' m s stage := by
  cases h with
  | kept there grown pending =>
    exact .kept there grown fun b hb => (pending b hb).imp_left weaker
  | replaced overlaps committed listed same there =>
    exact .replaced (weaker overlaps) committed listed same there

/-- Whatever the other call does next, it replaces the element by one that has grown from it, unless
the batches overlap. -/
theorem Survives.step {overlap : Prop} (h : Survives overlap m s stage) (distinct : stage.Distinct)
    (step : c.Step s stage (stage', s')) : Survives overlap m s' stage' := by
  cases h with
  | replaced overlaps committed listed same there =>
    cases committed
    cases step with
    | done => exact .replaced overlaps rfl listed same there
    | fail notCommitted => exact absurd rfl (notCommitted _)
  | @kept e there grown pending =>
    cases step with
    | compute computed =>
      refine .kept there grown fun b hb => .inr fun x hx same => ?_
      cases hb
      exact grown.trans (grows_of_computeBatch computed there hx (same.trans grown.id_eq.symm))
    | @commit b allowed =>
      by_cases listed : e.id ∈ b.modified.map (·.id)
      · obtain ⟨x, hx, same⟩ := List.mem_map.mp listed
        have there' := modified_of_write (distinct b rfl) allowed hx
        have same' := same.trans grown.id_eq
        rcases pending b rfl with overlaps | grows
        · exact .replaced overlaps rfl hx same' there'
        · exact .kept there' (grows x hx same') fun _ => nofun
      · exact .kept (untouched_of_write (distinct b rfl) allowed there listed) grown fun _ => nofun
    | done => exact .kept there grown fun _ => nofun
    | fail => exact .kept there grown fun _ => nofun

end

/-! ## Races -/

/-- Two calls at one store. -/
structure Race where
  store : Store
  first : Stage := .ready
  second : Stage := .ready

/-- The first call or the second one does its next phase. -/
def Race.turn (c d : Call) (w : Race) : Bool → Race
  | true =>
    let (stage, store) := c.advance w.store w.first
    ⟨store, stage, w.second⟩
  | false =>
    let (stage, store) := d.advance w.store w.second
    ⟨store, w.first, stage⟩

def race (s : Store) (c d : Call) (turns : List Bool) : Race :=
  turns.foldl (Race.turn c d) { store := s }

/-- At some time both batches are computed and neither is committed. -/
def Overlap (s : Store) (c d : Call) (turns : List Bool) : Prop :=
  ∃ before, before <+: turns ∧
    ∃ st b b', race s c d before = ⟨st, .computed b, .computed b'⟩

section

variable {s : Store} {c d : Call} {turns : List Bool}

theorem race_snoc (turn : Bool) :
    race s c d (turns ++ [turn]) = (race s c d turns).turn c d turn := by
  rw [race, List.foldl_append]
  rfl

theorem Overlap.snoc (h : Overlap s c d turns) (turn : Bool) : Overlap s c d (turns ++ [turn]) := by
  obtain ⟨before, within, both⟩ := h
  exact ⟨before, within.trans (List.prefix_append turns [turn]), both⟩

/-! ### Who is called first does not matter -/

def Race.swap (w : Race) : Race := ⟨w.store, w.second, w.first⟩

theorem Race.swap_turn (w : Race) (turn : Bool) :
    (w.turn c d turn).swap = w.swap.turn d c !turn := by
  cases turn <;> rfl

theorem swap_race : (race s c d turns).swap = race s d c (turns.map not) := by
  induction turns using List.reverseRecOn with
  | nil => rfl
  | append_singleton turns turn ih =>
    rw [race_snoc, Race.swap_turn, ih, List.map_append, List.map_singleton, race_snoc]

theorem Overlap.swap (h : Overlap s d c (turns.map not)) : Overlap s c d turns := by
  obtain ⟨before, within, st, b, b', both⟩ := h
  refine ⟨before.map not, ?_, st, b', b, ?_⟩
  · have mapped := within.map not
    rwa [List.map_map, Bool.involutive_not.comp_self, List.map_id] at mapped
  · rw [← swap_race, both]
    rfl

/-! ### What the first call has committed -/

/-- What the first call has committed survives. -/
structure Race.Keeps (overlap : Prop) (w : Race) : Prop where
  first : w.first.Distinct
  second : w.second.Distinct
  survives : ∀ b, w.first = .committed b → ∀ m ∈ b.modified,
    Survives overlap m w.store w.second

theorem Race.Keeps.turn {overlap : Prop} {w : Race} (h : w.Keeps overlap)
    (overlaps : ∀ st b b', w = ⟨st, .computed b, .computed b'⟩ → overlap) (turn : Bool) :
    (w.turn c d turn).Keeps overlap := by
  obtain ⟨st, first, second⟩ := w
  cases turn with
  | true =>
    have step := c.step_advance st first
    unfold Race.turn
    generalize c.advance st first = next at step
    obtain ⟨stage', st'⟩ := next
    refine ⟨h.first.step step, h.second, ?_⟩
    intro b committed m hm
    cases committed
    cases step with
    | commit allowed =>
      -- the element is there as the batch has it; what the second call has computed is older
      have there := modified_of_write (h.first b rfl) allowed hm
      refine .kept there (.refl m) fun b' pending => .inl ?_
      exact overlaps st b b' (congrArg (Race.mk st (.computed b)) pending)
    | done => exact h.survives b rfl m hm
  | false =>
    have step := d.step_advance st second
    unfold Race.turn
    generalize d.advance st second = next at step
    obtain ⟨stage', st'⟩ := next
    exact ⟨h.first, h.second.step step,
      fun b committed m hm => (h.survives b committed m hm).step h.second step⟩

theorem keeps_race : (race s c d turns).Keeps (Overlap s c d turns) := by
  induction turns using List.reverseRecOn with
  | nil => exact ⟨fun _ => nofun, fun _ => nofun, fun _ => nofun⟩
  | append_singleton turns turn ih =>
    rw [race_snoc]
    have weaker : Overlap s c d turns → Overlap s c d (turns ++ [turn]) := fun h => h.snoc turn
    refine Race.Keeps.turn ⟨ih.first, ih.second, ?_⟩ (fun st b b' both => ?_) turn
    · exact fun b committed m hm => (ih.survives b committed m hm).mono weaker
    · exact weaker ⟨turns, List.prefix_rfl, st, b, b', both⟩

/-- What the first call has modified is there, or the second one has replaced it. -/
theorem modified_first {b b' : Batch} (first : (race s c d turns).first = .committed b)
    (second : (race s c d turns).second = .committed b') {m : Element} (hm : m ∈ b.modified) :
    (∃ e ∈ (race s c d turns).store.elements.rows, m.Grows e) ∨
      Overlap s c d turns ∧
        ∃ x ∈ b'.modified, x.id = m.id ∧ x ∈ (race s c d turns).store.elements.rows := by
  cases keeps_race.survives b first m hm with
  | kept there grown => exact .inl ⟨_, there, grown⟩
  | replaced overlaps committed listed same there =>
    cases second.symm.trans committed
    exact .inr ⟨overlaps, _, listed, same, there⟩

end

/-- If two calls at one store succeed, every element that one of them has modified is there after
both, with all links, parts and members that it got. The only exceptions are batches that overlap:
then such an element may be just as the other call has modified it. -/
theorem race_keeps (s : Store) (c d : Call) (turns : List Bool) (b b' : Batch)
    (first : (race s c d turns).first = .committed b)
    (second : (race s c d turns).second = .committed b') :
    (∀ m ∈ b.modified, (∃ e ∈ (race s c d turns).store.elements.rows, m.Grows e) ∨
        Overlap s c d turns ∧
          ∃ x ∈ b'.modified, x.id = m.id ∧ x ∈ (race s c d turns).store.elements.rows) ∧
      ∀ m ∈ b'.modified, (∃ e ∈ (race s c d turns).store.elements.rows, m.Grows e) ∨
        Overlap s c d turns ∧
          ∃ x ∈ b.modified, x.id = m.id ∧ x ∈ (race s c d turns).store.elements.rows := by
  refine ⟨fun m hm => modified_first first second hm, fun m hm => ?_⟩
  have swapped : (race s c d turns).swap = race s d c (turns.map not) := swap_race
  have first' : (race s d c (turns.map not)).first = .committed b' := swapped ▸ second
  have second' : (race s d c (turns.map not)).second = .committed b := swapped ▸ first
  have others := modified_first first' second' hm
  rw [← swapped] at others
  exact others.imp_right (And.imp_left Overlap.swap)

/-- Two new processes join two stored scopes. The calls overlap, but they modify different scopes,
so both scopes have their members. -/
theorem race_keeps_of_two_scopes :
    let domain : Domain := .ofTemplate ⟨⟨1⟩⟩ { id := ⟨⟨0⟩⟩, name := "template", version := {} }
    let scope : TemplateItem :=
      { id := ⟨⟨10⟩⟩, nspace := domain.nspace, name := "scope", elementType := .scope }
    let process : TemplateItem :=
      { id := ⟨⟨11⟩⟩, nspace := domain.nspace, name := "process", elementType := .process }
    let s : Store := {
      units := .ofList [⟨⟨⟨2⟩⟩, "unit", [domain.id]⟩]
      elements := .ofList [scope.toElement ⟨⟨3⟩⟩ ⟨⟨2⟩⟩ domain.id,
        scope.toElement ⟨⟨4⟩⟩ ⟨⟨2⟩⟩ domain.id] }
    let call (scope' new : ElementId) := Call.create domain ⟨⟨2⟩⟩ process new
      [{ reference := ⟨⟨12⟩⟩, targetItem := scope.id, kind := .scope, target := .existing scope' }]
    let c := call ⟨⟨3⟩⟩ ⟨⟨5⟩⟩
    let d := call ⟨⟨4⟩⟩ ⟨⟨6⟩⟩
    let batch (scope' new : ElementId) : Batch := {
      unit := ⟨⟨2⟩⟩
      domain := domain.id
      created := [process.toElement new ⟨⟨2⟩⟩ domain.id]
      modified := [{ scope.toElement scope' ⟨⟨2⟩⟩ domain.id with members := [new] }] }
    let turns := [true, false, true, false]
    (race s c d turns).first = .committed (batch ⟨⟨3⟩⟩ ⟨⟨5⟩⟩) ∧
      (race s c d turns).second = .committed (batch ⟨⟨4⟩⟩ ⟨⟨6⟩⟩) ∧
      (race s c d turns).store.elements.rows.map (fun e => (e.id, e.members)) =
        [(⟨⟨3⟩⟩, [⟨⟨5⟩⟩]), (⟨⟨4⟩⟩, [⟨⟨6⟩⟩]), (⟨⟨5⟩⟩, []), (⟨⟨6⟩⟩, [])] ∧
      ∀ m ∈ (batch ⟨⟨3⟩⟩ ⟨⟨5⟩⟩).modified,
        ∃ e ∈ (race s c d turns).store.elements.rows, m.Grows e := by
  intro domain scope process s call c d batch turns
  have first : (race s c d turns).first = .committed (batch ⟨⟨3⟩⟩ ⟨⟨5⟩⟩) := by decide +kernel
  have second : (race s c d turns).second = .committed (batch ⟨⟨4⟩⟩ ⟨⟨6⟩⟩) := by decide +kernel
  refine ⟨first, second, by decide +kernel, fun m hm => ?_⟩
  obtain ⟨kept, -⟩ := race_keeps s c d turns _ _ first second
  -- the batches overlap, but they do not modify the same scope
  refine (kept m hm).resolve_right ?_
  rintro ⟨-, x, hx, same, -⟩
  rw [List.mem_singleton.mp hx, List.mem_singleton.mp hm] at same
  exact absurd same (by decide)

/-- Two new processes join the same stored scope. Both batches are computed before either one is
committed, so the second one puts back the scope without the first process. -/
theorem overlapping_race_loses_member :
    let domain : Domain := .ofTemplate ⟨⟨1⟩⟩ { id := ⟨⟨0⟩⟩, name := "template", version := {} }
    let scope : TemplateItem :=
      { id := ⟨⟨10⟩⟩, nspace := domain.nspace, name := "scope", elementType := .scope }
    let process : TemplateItem :=
      { id := ⟨⟨11⟩⟩, nspace := domain.nspace, name := "process", elementType := .process }
    let s := ofElement ⟨⟨⟨2⟩⟩, "unit", [domain.id]⟩ (scope.toElement ⟨⟨3⟩⟩ ⟨⟨2⟩⟩ domain.id)
    let call (new : ElementId) := Call.create domain ⟨⟨2⟩⟩ process new
      [{ reference := ⟨⟨12⟩⟩, targetItem := scope.id, kind := .scope, target := .existing ⟨⟨3⟩⟩ }]
    let c := call ⟨⟨4⟩⟩
    let d := call ⟨⟨5⟩⟩
    let w := race s c d [true, false, true, false]
    c.answer? s w.first =
        some (.ok { elements := [⟨⟨4⟩⟩], created := [⟨⟨4⟩⟩], modified := [⟨⟨3⟩⟩] }) ∧
      d.answer? s w.second =
        some (.ok { elements := [⟨⟨5⟩⟩], created := [⟨⟨5⟩⟩], modified := [⟨⟨3⟩⟩] }) ∧
      w.store.elements.rows.map (fun e => (e.id, e.members)) =
        [(⟨⟨3⟩⟩, [⟨⟨5⟩⟩]), (⟨⟨4⟩⟩, []), (⟨⟨5⟩⟩, [])] ∧
      ((s.after c).after d).elements.rows.map (fun e => (e.id, e.members)) =
        [(⟨⟨3⟩⟩, [⟨⟨4⟩⟩, ⟨⟨5⟩⟩]), (⟨⟨4⟩⟩, []), (⟨⟨5⟩⟩, [])] := by
  intro domain scope process s call c d w
  exact ⟨by decide +kernel, by decide +kernel, by decide +kernel, by decide +kernel⟩

end Store

end TemplateCatalog
