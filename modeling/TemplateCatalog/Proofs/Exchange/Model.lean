import TemplateCatalog.Exchange.Model
import TemplateCatalog.Proofs.Exchange.Form

/-!
# Forms of the model that read back

The forms of records and unions are lawful because the forms of their parts are.
For a record it is enough that its names are distinct, so that every field is
found. Two types need an argument of their own: a definition of an attribute
nests, and the entries of a reference's kind stand beside other entries.

Results:
1. `AttributeDefinition.ofJson?_toJson`: a definition of any depth is read, as
   long as the depth of its JSON value is allowed for.
2. `ReferenceKind.decodeIn_entries`: a kind is read from any object that has its
   entries.
3. `LawfulForm` for risk definitions, elements, units, items, domains, templates
   and profiles.
-/

namespace TemplateCatalog

instance : DistinctNames ElementType := ⟨by decide⟩

instance : DistinctNames ReferenceType := ⟨by decide⟩

instance : DistinctNames ImplementationStatus := ⟨by decide⟩

instance : DistinctNames RequestMode := ⟨by decide⟩

instance : DistinctNames LookupPolicy := ⟨by decide⟩

/-! ## Risk definitions -/

instance : LawfulForm Translations where
  decodeIn_encode s t := by
    show (decodeIn s (encode t.locales)).map Translations.mk = some t
    simp
  isReadable_encode t := isReadable_encode t.locales

instance : LawfulForm Level where
  decodeIn_encode _ x := by
    unfold instJsonFormLevel
    dsimp only
    simp [↓option_bind_eq_some_iff]
  isReadable_encode x := by
    unfold instJsonFormLevel
    simp

instance : LawfulForm ProbabilityScale where
  decodeIn_encode _ x := by
    unfold instJsonFormProbabilityScale
    dsimp only
    simp [↓option_bind_eq_some_iff]
  isReadable_encode x := by
    unfold instJsonFormProbabilityScale
    simp

instance : LawfulForm MatrixCell where
  decodeIn_encode _ x := by
    unfold instJsonFormMatrixCell
    dsimp only
    simp [↓option_bind_eq_some_iff]
  isReadable_encode x := by
    unfold instJsonFormMatrixCell
    simp

instance : LawfulForm Category where
  decodeIn_encode _ x := by
    unfold instJsonFormCategory
    dsimp only
    simp [↓option_bind_eq_some_iff]
  isReadable_encode x := by
    unfold instJsonFormCategory
    simp

instance : LawfulForm RiskDefinition where
  decodeIn_encode _ x := by
    unfold instJsonFormRiskDefinition
    dsimp only
    simp [↓option_bind_eq_some_iff]
  isReadable_encode x := by
    unfold instJsonFormRiskDefinition
    simp

/-! ## Elements and units -/

instance : LawfulForm CellRef where
  decodeIn_encode _ x := by
    unfold instJsonFormCellRef
    dsimp only
    simp [↓option_bind_eq_some_iff]
  isReadable_encode x := by
    unfold instJsonFormCellRef
    simp

instance : LawfulForm RiskValueRef where
  decodeIn_encode _ x := by
    unfold instJsonFormRiskValueRef
    dsimp only
    simp [↓option_bind_eq_some_iff]
  isReadable_encode x := by
    unfold instJsonFormRiskValueRef
    simp

instance : LawfulForm Risk where
  decodeIn_encode _ x := by
    unfold instJsonFormRisk
    dsimp only
    simp [↓option_bind_eq_some_iff]
  isReadable_encode x := by
    unfold instJsonFormRisk
    simp

instance : LawfulForm AppliedItem where
  decodeIn_encode _ x := by
    unfold instJsonFormAppliedItem
    dsimp only
    simp [↓option_bind_eq_some_iff]
  isReadable_encode x := by
    unfold instJsonFormAppliedItem
    simp

instance : LawfulForm CustomLink where
  decodeIn_encode _ x := by
    unfold instJsonFormCustomLink
    dsimp only
    simp [↓option_bind_eq_some_iff]
  isReadable_encode x := by
    unfold instJsonFormCustomLink
    simp

instance : LawfulForm ControlImplementation where
  decodeIn_encode _ x := by
    unfold instJsonFormControlImplementation
    dsimp only
    simp [↓option_bind_eq_some_iff]
  isReadable_encode x := by
    unfold instJsonFormControlImplementation
    simp

instance : LawfulForm RequirementImplementation where
  decodeIn_encode _ x := by
    unfold instJsonFormRequirementImplementation
    dsimp only
    simp [↓option_bind_eq_some_iff]
  isReadable_encode x := by
    unfold instJsonFormRequirementImplementation
    simp

instance : NeverNull AppliedItem := ⟨fun _ => nofun⟩

instance : LawfulForm Element where
  decodeIn_encode _ x := by
    unfold instJsonFormElement
    dsimp only
    simp [↓option_bind_eq_some_iff]
  isReadable_encode x := by
    unfold instJsonFormElement
    simp

instance : LawfulForm OrgUnit where
  decodeIn_encode _ x := by
    unfold instJsonFormOrgUnit
    dsimp only
    simp [↓option_bind_eq_some_iff]
  isReadable_encode x := by
    unfold instJsonFormOrgUnit
    simp

/-! ## Template items -/

instance : LawfulForm ItemNamespace where
  decodeIn_encode _ x := by
    unfold instJsonFormItemNamespace
    dsimp only
    cases x <;> simp [↓option_bind_eq_some_iff]
  isReadable_encode x := by
    unfold instJsonFormItemNamespace
    cases x <;> simp

instance : NeverNull ItemNamespace := ⟨fun x => by cases x <;> exact nofun⟩

namespace ReferenceKind

theorem names_nodup (kind : ReferenceKind) : (kind.entries.map (·.1)).Nodup := by
  cases kind <;> simp [entries]

theorem entries_readable (kind : ReferenceKind) : ∀ e ∈ kind.entries, e.2.isReadable = true := by
  cases kind <;> simp [entries]

/-- A kind is read from any object that has its entries, whatever else stands in the object. -/
theorem decodeIn_entries (kind : ReferenceKind) {s : Surroundings} {all : List (String × Json)}
    (distinct : (all.map (·.1)).Nodup) (readable : (Json.obj all).isReadable = true)
    (found : ∀ e ∈ kind.entries, all.lookup e.1 = some e.2) :
    decodeIn s (.obj all) = some kind := by
  have tagged : all.lookup "type" = some (.str (literal kind.type)) :=
    found ("type", encode kind.type) List.mem_cons_self
  have read : ofType? (.obj all) kind.type = some kind := by
    cases kind <;> simp only [entries, List.forall_mem_cons] at found <;>
      simp [ofType?, type, linkFields?, distinct, Record.get?, found]
  unfold instJsonFormReferenceKind
  simp only [Json.variant?_of_lookup distinct readable tagged]
  simp [Literal.ofText?_literal, read]

end ReferenceKind

instance : LawfulForm ReferenceKind where
  decodeIn_encode _ kind := kind.decodeIn_entries kind.names_nodup
    (Json.isReadable_obj.mpr kind.entries_readable) fun _ => Record.lookup_of_mem kind.names_nodup
  isReadable_encode kind := Json.isReadable_obj.mpr kind.entries_readable

namespace TailoringReference

def entries (x : TailoringReference) : List (String × Json) :=
  ("id", encode x.id) :: ("target", encode x.target) :: x.kind.entries

theorem names_nodup (x : TailoringReference) : (x.entries.map (·.1)).Nodup := by
  unfold entries
  cases x.kind <;> simp [ReferenceKind.entries]

theorem entries_readable (x : TailoringReference) : (Json.obj x.entries).isReadable = true := by
  simpa [entries] using x.kind.entries_readable

/-- The kind is read from among the entries of the reference. -/
theorem decodeIn_kind (x : TailoringReference) : decodeIn .union (.obj x.entries) = some x.kind :=
  x.kind.decodeIn_entries x.names_nodup x.entries_readable fun _ he =>
    Record.lookup_of_mem x.names_nodup (List.mem_cons_of_mem _ (List.mem_cons_of_mem _ he))

end TailoringReference

instance : LawfulForm TailoringReference where
  decodeIn_encode _ x := by
    have distinct := x.names_nodup
    have kind := x.decodeIn_kind
    unfold instJsonFormTailoringReference
    unfold TailoringReference.entries at distinct kind
    dsimp only
    simp [↓option_bind_eq_some_iff, Record.ofEntries?_obj distinct, kind]
  isReadable_encode x := x.entries_readable

instance : LawfulForm ReferenceFilter where
  decodeIn_encode _ x := by
    unfold instJsonFormReferenceFilter
    dsimp only
    simp [↓option_bind_eq_some_iff]
  isReadable_encode x := by
    unfold instJsonFormReferenceFilter
    simp

instance : LawfulForm TemplateItem where
  decodeIn_encode _ x := by
    unfold instJsonFormTemplateItem
    dsimp only
    simp [↓option_bind_eq_some_iff]
  isReadable_encode x := by
    unfold instJsonFormTemplateItem
    simp

/-! ## Domains, templates and profiles -/

namespace AttributeDefinition

theorem toJson_readable (d : AttributeDefinition) : d.toJson.isReadable = true := by
  induction d with
  | list item ih => simp [toJson, ih]
  | text | integer | boolean | date | enum => simp [toJson]

/-- Every list takes one step of the reader and one level of the JSON value. -/
theorem ofJson?_toJson (d : AttributeDefinition) (s : Surroundings) (fuel : Nat)
    (enough : d.toJson.nesting ≤ fuel) : ofJson? fuel s d.toJson = some d := by
  induction d generalizing s fuel with
  | list item ih =>
    cases fuel with
    | zero => simp [toJson, Json.nesting] at enough
    | succ fuel =>
      have behind : ofJson? fuel .union item.toJson = some item := by
        refine ih .union fuel ?_
        simpa [toJson, Json.nesting, Json.nestingEntries] using enough
      simp [toJson, ofJson?, item.toJson_readable, behind]
  | text | integer | boolean | date | enum =>
    cases fuel with
    | zero => simp [toJson, Json.nesting] at enough
    | succ fuel => simp [toJson, ofJson?]

end AttributeDefinition

instance : LawfulForm AttributeDefinition where
  decodeIn_encode s d := d.ofJson?_toJson s _ le_rfl
  isReadable_encode d := d.toJson_readable

instance : LawfulForm SubTypeDefinition where
  decodeIn_encode _ x := by
    unfold instJsonFormSubTypeDefinition
    dsimp only
    simp [↓option_bind_eq_some_iff]
  isReadable_encode x := by
    unfold instJsonFormSubTypeDefinition
    simp

instance : LawfulForm CustomAspectDefinition where
  decodeIn_encode _ x := by
    unfold instJsonFormCustomAspectDefinition
    dsimp only
    simp [↓option_bind_eq_some_iff]
  isReadable_encode x := by
    unfold instJsonFormCustomAspectDefinition
    simp

instance : LawfulForm LinkDefinition where
  decodeIn_encode _ x := by
    unfold instJsonFormLinkDefinition
    dsimp only
    simp [↓option_bind_eq_some_iff]
  isReadable_encode x := by
    unfold instJsonFormLinkDefinition
    simp

instance : LawfulForm ElementTypeDefinition where
  decodeIn_encode _ x := by
    unfold instJsonFormElementTypeDefinition
    dsimp only
    simp [↓option_bind_eq_some_iff]
  isReadable_encode x := by
    unfold instJsonFormElementTypeDefinition
    simp

instance : LawfulForm IncarnationConfiguration where
  decodeIn_encode _ x := by
    unfold instJsonFormIncarnationConfiguration
    dsimp only
    simp [↓option_bind_eq_some_iff]
  isReadable_encode x := by
    unfold instJsonFormIncarnationConfiguration
    simp

instance : LawfulForm DomainTemplate where
  decodeIn_encode _ x := by
    unfold instJsonFormDomainTemplate
    dsimp only
    simp [↓option_bind_eq_some_iff]
  isReadable_encode x := by
    unfold instJsonFormDomainTemplate
    simp

instance : LawfulForm Domain where
  decodeIn_encode _ x := by
    unfold instJsonFormDomain
    dsimp only
    simp [↓option_bind_eq_some_iff]
  isReadable_encode x := by
    unfold instJsonFormDomain
    simp

instance : LawfulForm Profile where
  decodeIn_encode _ x := by
    unfold instJsonFormProfile
    dsimp only
    simp [↓option_bind_eq_some_iff]
  isReadable_encode x := by
    unfold instJsonFormProfile
    simp

end TemplateCatalog
