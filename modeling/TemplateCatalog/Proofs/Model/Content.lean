import TemplateCatalog.Model.RiskDefinition
import TemplateCatalog.Proofs.Collections

/-!
# The content of risk definitions

Risk values point at levels by position, so the ordinals of levels carry no
information, and neither does a locale without any field. The content of a risk
definition is all the rest of it.

Results:
1. `Translations.content_eq_iff`: translations have one content exactly if they
   give the same text for every field of every locale.
2. `RiskDefinition.content_eq_iff`: the content of a definition is that of its parts.
-/

namespace TemplateCatalog

namespace Translations

/-! ## Fields -/

theorem mem_fieldKeys {t : Translations} {locale field : String} :
    (locale, field) ∈ t.fieldKeys ↔ ∃ text, t.get? locale field = some text := by
  unfold fieldKeys get?
  simp only [List.mem_flatMap, List.mem_map, Dictionary.keys, Option.bind_eq_some_iff,
    Dictionary.get?_eq_some_iff]
  constructor
  · rintro ⟨⟨_, fields⟩, he, _, ⟨⟨_, text⟩, ht, rfl⟩, same⟩
    cases same
    exact ⟨text, fields, he, ht⟩
  · rintro ⟨text, fields, he, ht⟩
    exact ⟨(locale, fields), he, field, ⟨(field, text), ht, rfl⟩, rfl⟩

theorem mem_keysUnion {a b : Translations} {k : String × String} :
    k ∈ a.keysUnion b ↔ k ∈ a.fieldKeys ∨ k ∈ b.fieldKeys := by
  unfold keysUnion
  rw [List.mem_mergeSort, List.mem_append, List.mem_filter]
  by_cases first : k ∈ a.fieldKeys
  · simp [first]
  · simp [first]

/-- A field with two texts is a field of one side. -/
theorem mem_keysUnion_of_ne {a b : Translations} {locale field : String}
    (h : a.get? locale field ≠ b.get? locale field) : (locale, field) ∈ a.keysUnion b := by
  rw [mem_keysUnion, mem_fieldKeys, mem_fieldKeys]
  cases ha : a.get? locale field with
  | some text => exact .inl ⟨text, rfl⟩
  | none =>
    rw [ha] at h
    obtain ⟨text, given⟩ := Option.ne_none_iff_exists'.mp h.symm
    exact .inr ⟨text, given⟩

/-! ## Content -/

/-- The translations without the locales that have no fields. -/
def content (t : Translations) : Translations := ⟨t.locales.filter fun fields => !fields.isEmpty⟩

theorem get?_content (t : Translations) (locale field : String) :
    t.content.get? locale field = t.get? locale field := by
  unfold get? content
  rw [Dictionary.get?_filter]
  cases t.locales.get? locale with
  | none => rfl
  | some fields =>
    cases empty : fields.isEmpty with
    | false => simp [Option.filter, empty]
    | true => simp [Option.filter, empty, Dictionary.get?_of_isEmpty empty]

/-- A locale of the content has a field. -/
theorem exists_get?_of_content {t : Translations} {locale : String} {fields : Dictionary String}
    (h : t.content.locales.get? locale = some fields) :
    ∃ field text, t.get? locale field = some text := by
  unfold content at h
  rw [Dictionary.get?_filter, Option.filter_eq_some_iff] at h
  obtain ⟨found, some_field⟩ := h
  cases entries : fields.entries with
  | nil => simp [Dictionary.isEmpty, entries] at some_field
  | cons e rest =>
    refine ⟨e.1, e.2, ?_⟩
    rw [get?, found, Option.bind_some, Dictionary.get?_eq_some_iff, entries]
    exact List.mem_cons_self

theorem content_eq_iff {a b : Translations} :
    a.content = b.content ↔ ∀ locale field, a.get? locale field = b.get? locale field := by
  constructor
  · intro h locale field
    rw [← get?_content a, ← get?_content b, h]
  · intro h
    have same : ∀ locale field, a.content.get? locale field = b.content.get? locale field := by
      intro locale field
      rw [get?_content, get?_content, h]
    -- a locale that one side has comes with a field, so the other side has the locale too
    have present {a b : Translations}
        (h : ∀ locale field, a.get? locale field = b.get? locale field)
        {locale : String} {fields : Dictionary String}
        (found : a.content.locales.get? locale = some fields) :
        ∃ fields', b.content.locales.get? locale = some fields' := by
      obtain ⟨field, text, given⟩ := exists_get?_of_content found
      rw [h, ← get?_content b, get?] at given
      obtain ⟨fields', found', -⟩ := Option.bind_eq_some_iff.mp given
      exact ⟨fields', found'⟩
    refine Translations.ext (Dictionary.ext_get? fun locale => ?_)
    cases ha : a.content.locales.get? locale with
    | none =>
      cases hb : b.content.locales.get? locale with
      | none => rfl
      | some fields =>
        obtain ⟨fields', found⟩ := present (fun locale field => (h locale field).symm) hb
        cases ha.symm.trans found
    | some fields =>
      obtain ⟨fields', hb⟩ := present h ha
      rw [hb]
      refine congrArg some (Dictionary.ext_get? fun field => ?_)
      have texts := same locale field
      unfold get? at texts
      rwa [ha, hb] at texts

end Translations

def Level.content (level : Level) : Level :=
  { level with ordinal := 0, translations := level.translations.content }

theorem Level.content_eq_iff {a b : Level} :
    a.content = b.content ↔
      a.color = b.color ∧ a.translations.content = b.translations.content := by
  simp [content]

def Category.content (c : Category) : Category :=
  { c with impacts := c.impacts.map Level.content, translations := c.translations.content }

theorem Category.content_eq_iff {a b : Category} :
    a.content = b.content ↔
      a.id = b.id ∧ a.translations.content = b.translations.content ∧
        a.impacts.map Level.content = b.impacts.map Level.content ∧ a.matrix = b.matrix := by
  simp only [content, Category.mk.injEq]
  tauto

/-- The definition without the ordinals of its levels and without locales that have no fields. -/
def RiskDefinition.content (d : RiskDefinition) : RiskDefinition where
  id := d.id
  probability :=
    { levels := d.probability.levels.map Level.content
      translations := d.probability.translations.content }
  riskValues := d.riskValues.map Level.content
  categories := d.categories.map Category.content
  translations := d.translations.content

theorem RiskDefinition.content_eq_iff {a b : RiskDefinition} :
    a.content = b.content ↔
      a.id = b.id ∧ a.translations.content = b.translations.content ∧
        a.probability.translations.content = b.probability.translations.content ∧
        a.probability.levels.map Level.content = b.probability.levels.map Level.content ∧
        a.riskValues.map Level.content = b.riskValues.map Level.content ∧
        a.categories.map Category.content = b.categories.map Category.content := by
  simp only [content, RiskDefinition.mk.injEq, ProbabilityScale.mk.injEq]
  tauto

end TemplateCatalog
