import TemplateCatalog.Proofs.Collections
import TemplateCatalog.Proofs.Incarnation.Amendment

/-!
# What workspaces hold

`Workspace.Tracked` is the invariant of a workspace: identifiers are distinct,
new elements belong to the unit, and every changed element is a stored element
of the unit that has grown.

Results:
1. `update_cases`: where the element stands that a change affects.
2. `Tracked.holds_of_element`: an element that is found is a new or a stored
   element of the unit, and it has the type that it is found with.
3. `Tracked.create`, `Tracked.update`: the invariant is kept.
4. `Tracked.mem_created_update`, `mem_modified_update`: what a change writes.
-/

namespace TemplateCatalog

/-- A unit has a stored element with an identifier and a type. -/
def Store.Knows (s : Store) (unit : UnitId) (id : ElementId) (t : ElementType) : Prop :=
  ∃ e ∈ s.elements.rows, e.id = id ∧ e.owner = unit ∧ e.elementType = t

namespace Workspace

/-! ## Lists of elements -/

theorem find?_eq_some {es : List Element} {id : ElementId} {e : Element}
    (h : find? es id = some e) : e ∈ es ∧ e.id = id :=
  ⟨List.mem_of_find?_eq_some h, by simpa using List.find?_some h⟩

theorem find?_eq_none_iff {es : List Element} {id : ElementId} :
    find? es id = none ↔ id ∉ es.map (·.id) := by
  simp [find?, List.find?_eq_none]

theorem find?_of_mem {es : List Element} {e : Element} (distinct : (es.map (·.id)).Nodup)
    (h : e ∈ es) : find? es e.id = some e :=
  find?_of_nodup distinct h

theorem mem_updateIn {es : List Element} {id : ElementId} {f : Element → Element} {e : Element} :
    e ∈ updateIn es id f ↔ ∃ x ∈ es, e = if x.id = id then f x else x := by
  simp only [updateIn, List.mem_map]
  exact exists_congr fun x => and_congr_right fun _ => eq_comm

theorem cores_updateIn (es : List Element) (id : ElementId) {f : Element → Element}
    (core : ∀ e, (f e).core = e.core) :
    (updateIn es id f).map Element.core = es.map Element.core := by
  rw [updateIn, List.map_map]
  refine List.map_congr_left fun e _ => ?_
  show (if e.id = id then f e else e).core = e.core
  split
  · exact core e
  · rfl

theorem ids_of_cores {es es' : List Element} (h : es'.map Element.core = es.map Element.core) :
    es'.map (·.id) = es.map (·.id) := by
  have ids := congrArg (List.map Element.id) h
  rw [List.map_map, List.map_map] at ids
  exact ids

variable {ws ws' : Workspace} {id : ElementId} {f : Element → Element} {e : Element}

/-! ## Reading and changing -/

theorem load_eq_ok (h : ws.load id = .ok e) :
    e ∈ ws.connection.store.elements.rows ∧ e.id = id ∧ e.owner = ws.unit := by
  unfold load Connection.findElement Connection.answer at h
  split at h
  · cases h
  · cases h
  · next x found =>
    split at found
    · cases found
    · split at h
      · next owned =>
        cases h
        obtain ⟨stored, hid⟩ := Table.get?_eq_some_iff.mp (Except.ok.inj found)
        exact ⟨stored, hid, owned⟩
      · cases h

theorem element_of_created (h : find? ws.created id = some e) : ws.element id = .ok e := by
  simp [element, h]

theorem element_of_modified (hc : find? ws.created id = none) (h : find? ws.modified id = some e) :
    ws.element id = .ok e := by
  simp [element, hc, h]

theorem element_of_load (hc : find? ws.created id = none) (hm : find? ws.modified id = none) :
    ws.element id = ws.load id := by
  simp [element, hc, hm]

theorem element_eq_ok (h : ws.element id = .ok e) :
    find? ws.created id = some e ∨
      find? ws.created id = none ∧
        (find? ws.modified id = some e ∨ find? ws.modified id = none ∧ ws.load id = .ok e) := by
  unfold element at h
  cases hc : find? ws.created id with
  | some x =>
    simp only [hc, Option.some_or] at h
    cases h
    exact .inl rfl
  | none =>
    cases hm : find? ws.modified id with
    | some x =>
      simp only [hc, hm, Option.none_or] at h
      cases h
      exact .inr ⟨rfl, .inl rfl⟩
    | none =>
      simp only [hc, hm, Option.none_or] at h
      exact .inr ⟨rfl, .inr ⟨rfl, h⟩⟩

/-- A change affects a new element, one that was changed before, or a copy of a stored one. -/
theorem update_cases (h : ws.update id f = .ok ws') :
    ∃ e, ws.element id = .ok e ∧
      (find? ws.created id = some e ∧ ws' = { ws with created := updateIn ws.created id f } ∨
        find? ws.created id = none ∧
          (find? ws.modified id = some e ∧
              ws' = { ws with modified := updateIn ws.modified id f } ∨
            find? ws.modified id = none ∧ ws' = { ws with modified := ws.modified ++ [f e] })) := by
  unfold update at h
  cases hc : find? ws.created id with
  | some e =>
    rw [hc, Option.isSome_some, if_pos rfl] at h
    cases h
    exact ⟨e, element_of_created hc, .inl ⟨rfl, rfl⟩⟩
  | none =>
    rw [hc, Option.isSome_none, if_neg Bool.false_ne_true] at h
    cases hm : find? ws.modified id with
    | some e =>
      rw [hm, Option.isSome_some, if_pos rfl] at h
      cases h
      exact ⟨e, element_of_modified hc hm, .inr ⟨rfl, .inl ⟨rfl, rfl⟩⟩⟩
    | none =>
      rw [hm, Option.isSome_none, if_neg Bool.false_ne_true] at h
      obtain ⟨e, loaded, rfl⟩ := except_map_eq_ok.mp h
      exact ⟨e, by rw [element_of_load hc hm, loaded], .inr ⟨rfl, .inr ⟨rfl, rfl⟩⟩⟩

theorem update_connection (h : ws.update id f = .ok ws') :
    ws'.connection = ws.connection ∧ ws'.unit = ws.unit := by
  obtain ⟨e, -, ⟨-, rfl⟩ | ⟨-, ⟨-, rfl⟩ | ⟨-, rfl⟩⟩⟩ := update_cases h
  · exact ⟨rfl, rfl⟩
  · exact ⟨rfl, rfl⟩
  · exact ⟨rfl, rfl⟩

theorem update_created_cores (core : ∀ e, (f e).core = e.core) (h : ws.update id f = .ok ws') :
    ws'.created.map Element.core = ws.created.map Element.core := by
  obtain ⟨e, -, ⟨-, rfl⟩ | ⟨-, ⟨-, rfl⟩ | ⟨-, rfl⟩⟩⟩ := update_cases h
  · exact cores_updateIn ws.created id core
  · rfl
  · rfl

/-! ## The invariant -/

/-- Distinct new elements of the unit, and distinct stored elements of it that have grown. -/
structure Tracked (ws : Workspace) : Prop where
  created_ids : (ws.created.map (·.id)).Nodup
  modified_ids : (ws.modified.map (·.id)).Nodup
  created_owner : ∀ e ∈ ws.created, e.owner = ws.unit
  modified_origin : ∀ e ∈ ws.modified,
    ∃ s ∈ ws.connection.store.elements.rows, s.owner = ws.unit ∧ s.Grows e

/-- The unit has a new or a stored element with an identifier and a type. -/
def Holds (ws : Workspace) (id : ElementId) (t : ElementType) : Prop :=
  (∃ e ∈ ws.created, e.id = id ∧ e.elementType = t) ∨ ws.connection.store.Knows ws.unit id t

namespace Tracked

/-- An element that is not new is a stored element of the unit that may have grown. -/
theorem origin_of_element (t : ws.Tracked) (hc : find? ws.created id = none)
    (h : ws.element id = .ok e) :
    ∃ s ∈ ws.connection.store.elements.rows, s.id = id ∧ s.owner = ws.unit ∧ s.Grows e := by
  rcases element_eq_ok h with created | ⟨-, modified | ⟨-, loaded⟩⟩
  · rw [hc] at created
    cases created
  · obtain ⟨he, hid⟩ := find?_eq_some modified
    obtain ⟨s, hs, owned, grown⟩ := t.modified_origin e he
    exact ⟨s, hs, grown.id_eq.symm.trans hid, owned, grown⟩
  · obtain ⟨stored, hid, owned⟩ := load_eq_ok loaded
    exact ⟨e, stored, hid, owned, .refl e⟩

theorem holds_of_element (t : ws.Tracked) (h : ws.element id = .ok e) :
    ws.Holds id e.elementType := by
  cases hc : find? ws.created id with
  | some x =>
    rw [element_of_created hc] at h
    cases h
    obtain ⟨he, hid⟩ := find?_eq_some hc
    exact .inl ⟨e, he, hid, rfl⟩
  | none =>
    obtain ⟨s, hs, hid, owned, grown⟩ := t.origin_of_element hc h
    exact .inr ⟨s, hs, hid, owned, grown.elementType_eq.symm⟩

end Tracked

/-! ## What a change writes -/

theorem Tracked.mem_created_update (t : ws.Tracked) (h : ws.update id f = .ok ws') {x : Element}
    (hx : x ∈ ws'.created) :
    x ∈ ws.created ∨ ∃ e ∈ ws.created, ws.element id = .ok e ∧ x = f e := by
  obtain ⟨e, found, ⟨hc, rfl⟩ | ⟨-, ⟨-, rfl⟩ | ⟨-, rfl⟩⟩⟩ := update_cases h
  · obtain ⟨y, hy, rfl⟩ := mem_updateIn.mp hx
    split
    · next hid =>
      -- identifiers are distinct, so the element that changes is the one that was found
      have same := find?_of_mem t.created_ids hy
      rw [hid, hc] at same
      cases same
      exact .inr ⟨e, hy, found, rfl⟩
    · exact .inl hy
  · exact .inl hx
  · exact .inl hx

theorem Tracked.mem_modified_update (t : ws.Tracked) (h : ws.update id f = .ok ws') {x : Element}
    (hx : x ∈ ws'.modified) :
    x ∈ ws.modified ∨
      find? ws.created id = none ∧ ∃ e, ws.element id = .ok e ∧ x = f e := by
  obtain ⟨e, found, ⟨-, rfl⟩ | ⟨hc, ⟨hm, rfl⟩ | ⟨-, rfl⟩⟩⟩ := update_cases h
  · exact .inl hx
  · obtain ⟨y, hy, rfl⟩ := mem_updateIn.mp hx
    split
    · next hid =>
      have same := find?_of_mem t.modified_ids hy
      rw [hid, hm] at same
      cases same
      exact .inr ⟨hc, e, found, rfl⟩
    · exact .inl hy
  · rcases List.mem_append.mp hx with hx | hx
    · exact .inl hx
    · exact .inr ⟨hc, e, found, List.mem_singleton.mp hx⟩

/-! ## Steps -/

theorem Tracked.create (t : ws.Tracked) (fresh : e.id ∉ ws.created.map (·.id))
    (owned : e.owner = ws.unit) : (ws.create e).Tracked where
  created_ids := nodup_map_append_singleton t.created_ids fresh
  modified_ids := t.modified_ids
  created_owner := by
    intro x hx
    rcases List.mem_append.mp hx with hx | hx
    · exact t.created_owner x hx
    · rw [List.mem_singleton.mp hx]
      exact owned
  modified_origin := t.modified_origin

/-- An element that is not new may only grow. -/
theorem Tracked.update (t : ws.Tracked) (core : ∀ e, (f e).core = e.core)
    (grows : find? ws.created id = none → ∀ e : Element, e.Grows (f e))
    (h : ws.update id f = .ok ws') : ws'.Tracked := by
  obtain ⟨sameConnection, sameUnit⟩ := update_connection h
  refine ⟨?_, ?_, ?_, ?_⟩
  · rw [ids_of_cores (update_created_cores core h)]
    exact t.created_ids
  · obtain ⟨e, found, ⟨-, rfl⟩ | ⟨hc, ⟨-, rfl⟩ | ⟨hm, rfl⟩⟩⟩ := update_cases h
    · exact t.modified_ids
    · show ((updateIn ws.modified id f).map (·.id)).Nodup
      rw [ids_of_cores (cores_updateIn ws.modified id core)]
      exact t.modified_ids
    · obtain ⟨s, -, hid, -, grown⟩ := t.origin_of_element hc found
      have same : (f e).id = id := (grown.trans (grows hc e)).id_eq.trans hid
      exact nodup_map_append_singleton t.modified_ids (same ▸ find?_eq_none_iff.mp hm)
  · intro x hx
    rw [sameUnit]
    rcases t.mem_created_update h hx with hx | ⟨e, he, -, rfl⟩
    · exact t.created_owner x hx
    · exact (Element.eq_of_core Element.owner (fun _ => rfl) (core e)).trans (t.created_owner e he)
  · intro x hx
    rw [sameUnit, sameConnection]
    rcases t.mem_modified_update h hx with hx | ⟨hc, e, found, rfl⟩
    · exact t.modified_origin x hx
    · obtain ⟨s, hs, -, owned, grown⟩ := t.origin_of_element hc found
      exact ⟨s, hs, owned, grown.trans (grows hc e)⟩

theorem Holds.create {t : ElementType} (h : ws.Holds id t) : (ws.create e).Holds id t := by
  rcases h with ⟨x, hx, known⟩ | stored
  · exact .inl ⟨x, List.mem_append_left _ hx, known⟩
  · exact .inr stored

theorem Holds.update {holder : ElementId} {t : ElementType} (holds : ws.Holds id t)
    (core : ∀ e, (f e).core = e.core) (h : ws.update holder f = .ok ws') : ws'.Holds id t := by
  obtain ⟨e, -, ⟨-, rfl⟩ | ⟨-, ⟨-, rfl⟩ | ⟨-, rfl⟩⟩⟩ := update_cases h
  · rcases holds with ⟨x, hx, hid, ht⟩ | stored
    · refine .inl ⟨_, mem_updateIn.mpr ⟨x, hx, rfl⟩, ?_, ?_⟩
      · split
        · exact (Element.eq_of_core Element.id (fun _ => rfl) (core x)).trans hid
        · exact hid
      · split
        · exact (Element.eq_of_core Element.elementType (fun _ => rfl) (core x)).trans ht
        · exact ht
    · exact .inr stored
  · exact holds
  · exact holds

end Workspace

end TemplateCatalog
