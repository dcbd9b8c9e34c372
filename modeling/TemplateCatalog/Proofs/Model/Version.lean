import TemplateCatalog.Model.Version

/-!
# The order of versions

Results:
1. `before_iff`: a version comes before another exactly if it is below it in the
   first component in which the two differ.
2. `compare_eq_lt_iff`, `compare_eq_eq_iff`, `compare_swap`: what a comparison
   answers, either way round.
-/

namespace TemplateCatalog.TemplateVersion

/-- The lexicographic order of the components. -/
inductive Below (a b : TemplateVersion) : Prop
  | major : a.major < b.major → Below a b
  | minor : a.major = b.major → a.minor < b.minor → Below a b
  | patch : a.major = b.major → a.minor = b.minor → a.patch < b.patch → Below a b

variable {a b : TemplateVersion}

theorem before_iff : a.before b = true ↔ Below a b := by
  unfold before compare
  rw [beq_iff_eq, Ordering.then_eq_lt, Ordering.then_eq_lt]
  simp only [Std.compare_eq_lt, Std.LawfulEqOrd.compare_eq_iff_eq]
  constructor
  · rintro (major | ⟨same, minor | ⟨same', patch⟩⟩)
    · exact .major major
    · exact .minor same minor
    · exact .patch same same' patch
  · rintro (major | ⟨same, minor⟩ | ⟨same, same', patch⟩)
    · exact .inl major
    · exact .inr ⟨same, .inl minor⟩
    · exact .inr ⟨same, .inr ⟨same', patch⟩⟩

theorem not_before_iff : a.before b = false ↔ ¬ Below a b := by
  rw [← before_iff, Bool.not_eq_true]

theorem not_below_self : ¬ Below a a := by
  rintro (major | ⟨-, minor⟩ | ⟨-, -, patch⟩)
  · exact UInt32.lt_irrefl _ major
  · exact UInt32.lt_irrefl _ minor
  · exact UInt32.lt_irrefl _ patch

theorem compare_eq_lt_iff : compare a b = .lt ↔ Below a b := by
  rw [← before_iff, before, beq_iff_eq]

theorem compare_eq_eq_iff : compare a b = .eq ↔ a = b := by
  cases a
  cases b
  simp [compare, Ordering.then_eq_eq]

theorem compare_swap (a b : TemplateVersion) : (compare a b).swap = compare b a := by
  simp only [compare, Ordering.swap_then, ← Std.OrientedOrd.eq_swap]

end TemplateCatalog.TemplateVersion
