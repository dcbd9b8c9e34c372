import TemplateCatalog.Configuration.Settings
import TemplateCatalog.Exchange.Migration
import TemplateCatalog.Exchange.Plan
import TemplateCatalog.Proofs.Exchange.Model
import Mathlib.Data.List.Induction

/-!
# What is exchanged reads back

Requests, plans, change sets, outcomes and settings, and with the model all that
is exchanged as JSON.

Results:
1. `LawfulForm` for plans, changes, outcomes and settings and all their parts.
2. `EnumSet.encode_eq`: a set is written in declaration order.
3. `DistinctList.toList_ofList`: what is inserted in turn is written in turn, what
   is repeated where it came first.
4. `exchanged_read_back`: every exchanged value is read back from its JSON value.
-/

namespace TemplateCatalog

instance : DistinctNames AuxiliaryRole := ⟨by decide⟩

instance : DistinctNames ChangeKind := ⟨by decide⟩

instance : DistinctNames AttributeChange := ⟨by decide⟩

instance : DistinctNames MigrationState := ⟨by decide⟩

/-! ## Requests and plans -/

instance : LawfulForm IncarnationRequest where
  decodeIn_encode _ x := by
    unfold instJsonFormIncarnationRequest
    dsimp only
    simp [↓option_bind_eq_some_iff]
  isReadable_encode x := by
    unfold instJsonFormIncarnationRequest
    simp

instance : LawfulForm Disposition where
  decodeIn_encode _ x := by
    unfold instJsonFormDisposition
    dsimp only
    cases x <;> simp [↓option_bind_eq_some_iff]
  isReadable_encode x := by
    unfold instJsonFormDisposition
    cases x <;> simp

instance : LawfulForm ReferenceTarget where
  decodeIn_encode _ x := by
    unfold instJsonFormReferenceTarget
    dsimp only
    cases x <;> simp [↓option_bind_eq_some_iff]
  isReadable_encode x := by
    unfold instJsonFormReferenceTarget
    cases x <;> simp

instance : LawfulForm AuxiliaryTarget where
  decodeIn_encode _ x := by
    unfold instJsonFormAuxiliaryTarget
    dsimp only
    simp [↓option_bind_eq_some_iff]
  isReadable_encode x := by
    unfold instJsonFormAuxiliaryTarget
    simp

instance : LawfulForm ResolvedReference where
  decodeIn_encode _ x := by
    unfold instJsonFormResolvedReference
    dsimp only
    simp [↓option_bind_eq_some_iff]
  isReadable_encode x := by
    unfold instJsonFormResolvedReference
    simp

instance : LawfulForm IncarnationDescription where
  decodeIn_encode _ x := by
    unfold instJsonFormIncarnationDescription
    dsimp only
    simp [↓option_bind_eq_some_iff, -Bool.exists_bool]
  isReadable_encode x := by
    unfold instJsonFormIncarnationDescription
    simp

instance : LawfulForm IntegrityIssue where
  decodeIn_encode _ x := by
    unfold instJsonFormIntegrityIssue
    dsimp only
    cases x <;> simp [↓option_bind_eq_some_iff]
  isReadable_encode x := by
    unfold instJsonFormIntegrityIssue
    cases x <;> simp

instance : LawfulForm IncarnationPlan where
  decodeIn_encode _ x := by
    unfold instJsonFormIncarnationPlan
    dsimp only
    simp [↓option_bind_eq_some_iff]
  isReadable_encode x := by
    unfold instJsonFormIncarnationPlan
    simp

instance : LawfulForm AppliedIncarnation where
  decodeIn_encode _ x := by
    unfold instJsonFormAppliedIncarnation
    dsimp only
    simp [↓option_bind_eq_some_iff]
  isReadable_encode x := by
    unfold instJsonFormAppliedIncarnation
    simp

/-! ## Changes and outcomes -/

instance : LawfulForm Axis where
  decodeIn_encode _ x := by
    unfold instJsonFormAxis
    dsimp only
    cases x <;> simp [↓option_bind_eq_some_iff]
  isReadable_encode x := by
    unfold instJsonFormAxis
    cases x <;> simp

instance : LawfulForm ChangeTarget where
  decodeIn_encode _ x := by
    unfold instJsonFormChangeTarget
    dsimp only
    cases x <;> simp [↓option_bind_eq_some_iff]
  isReadable_encode x := by
    unfold instJsonFormChangeTarget
    cases x <;> simp

instance : LawfulForm Change where
  decodeIn_encode _ x := by
    unfold instJsonFormChange
    dsimp only
    cases x <;> simp [↓option_bind_eq_some_iff]
  isReadable_encode x := by
    unfold instJsonFormChange
    cases x <;> simp

instance : LawfulForm ChangeEffect where
  decodeIn_encode _ x := by
    unfold instJsonFormChangeEffect
    dsimp only
    cases x <;> simp [↓option_bind_eq_some_iff]
  isReadable_encode x := by
    unfold instJsonFormChangeEffect
    cases x <;> simp

instance : LawfulForm ChangeSet where
  decodeIn_encode _ x := by
    unfold instJsonFormChangeSet
    dsimp only
    simp [↓option_bind_eq_some_iff]
  isReadable_encode x := by
    unfold instJsonFormChangeSet
    simp

instance : LawfulForm BreakingChange where
  decodeIn_encode _ x := by
    unfold instJsonFormBreakingChange
    dsimp only
    cases x <;> simp [↓option_bind_eq_some_iff]
  isReadable_encode x := by
    unfold instJsonFormBreakingChange
    cases x <;> simp

instance : LawfulForm Trail where
  decodeIn_encode s t := by
    show (decodeIn s (encode t.states)).map Trail.mk = some t
    simp
  isReadable_encode t := isReadable_encode t.states

instance : LawfulForm MigrationOutcome where
  decodeIn_encode _ x := by
    unfold instJsonFormMigrationOutcome
    dsimp only
    cases x <;> simp [↓option_bind_eq_some_iff]
  isReadable_encode x := by
    unfold instJsonFormMigrationOutcome
    cases x <;> simp

/-! ## Settings -/

instance : LawfulForm IncarnationSettings where
  decodeIn_encode _ x := by
    unfold instJsonFormIncarnationSettings
    dsimp only
    simp [↓option_bind_eq_some_iff, -Bool.exists_bool]
  isReadable_encode x := by
    unfold instJsonFormIncarnationSettings
    simp

instance : LawfulForm MigrationSettings where
  decodeIn_encode _ x := by
    unfold instJsonFormMigrationSettings
    dsimp only
    simp [↓option_bind_eq_some_iff]
  isReadable_encode x := by
    unfold instJsonFormMigrationSettings
    simp

instance : LawfulForm RepositorySettings where
  decodeIn_encode _ x := by
    unfold instJsonFormRepositorySettings
    dsimp only
    simp [↓option_bind_eq_some_iff, -Bool.exists_bool]
  isReadable_encode x := by
    unfold instJsonFormRepositorySettings
    simp

instance : LawfulForm Settings where
  decodeIn_encode _ x := by
    unfold instJsonFormSettings
    dsimp only
    simp [↓option_bind_eq_some_iff]
  isReadable_encode x := by
    unfold instJsonFormSettings
    simp

/-! ## Orders -/

/-- A set is written in declaration order, whatever order its members came in. -/
theorem EnumSet.encode_eq {α : Type} [Enumerated α] [JsonForm α] [DecidableEq α] (s : EnumSet α) :
    ∃ as : List α, encode s = .arr (as.map encode) ∧ as.Sublist Enumerated.all ∧
      ∀ a, a ∈ as ↔ a ∈ s :=
  ⟨s.toList, rfl, List.filter_sublist, fun _ => mem_toList⟩

/-- Values that are inserted in turn stay in this order, each where it came first. -/
theorem DistinctList.toList_ofList {α : Type} [DecidableEq α] (as : List α) :
    (ofList as).toList = as.eraseDups := by
  induction as using List.reverseRecOn with
  | nil => rfl
  | append_singleton as a ih =>
    have step : ofList (as ++ [a]) = (ofList as).push a := by
      simp [ofList, append, List.foldl_append]
    rw [step, toList_push, ih, List.eraseDups_append]
    by_cases old : a ∈ as
    · rw [if_pos (List.mem_eraseDups.mpr old)]
      simp [List.removeAll, old]
    · rw [if_neg fun h => old (List.mem_eraseDups.mp h)]
      simp [List.removeAll, old, List.eraseDups_cons]

/-! ## Reading back -/

/-- Every value is read back from what is written for it. -/
def ReadsBack (α : Type) [JsonForm α] : Prop := ∀ a : α, decode (encode a) = some a

theorem ReadsBack.of_lawful {α : Type} [JsonForm α] [LawfulForm α] : ReadsBack α :=
  fun a => decodeIn_encode .json a

/-- All that is exchanged is read back from the JSON value that is written for it. In such a value
the members of a set stand in declaration order, and the changes of a set in the order in which they
were inserted. -/
theorem exchanged_read_back :
    ReadsBack TemplateItem ∧ ReadsBack Profile ∧ ReadsBack Domain ∧ ReadsBack DomainTemplate ∧
      ReadsBack Element ∧ ReadsBack OrgUnit ∧ ReadsBack RiskDefinition ∧
      ReadsBack IncarnationRequest ∧ ReadsBack IncarnationPlan ∧ ReadsBack ChangeSet ∧
      ReadsBack BreakingChange ∧ ReadsBack MigrationOutcome ∧ ReadsBack Settings ∧
      (∀ (α : Type) [Literal α] [DecidableEq α] (s : EnumSet α), ∃ as : List α,
        encode s = .arr (as.map encode) ∧ as.Sublist Enumerated.all ∧ ∀ a, a ∈ as ↔ a ∈ s) ∧
      ∀ (riskDefinition : String) (changes : List Change),
        encode (ChangeSet.mk riskDefinition (.ofList changes)) =
          .obj [("risk_definition", .str riskDefinition),
            ("changes", .arr (changes.eraseDups.map encode))] := by
  refine ⟨.of_lawful, .of_lawful, .of_lawful, .of_lawful, .of_lawful, .of_lawful, .of_lawful,
    .of_lawful, .of_lawful, .of_lawful, .of_lawful, .of_lawful, .of_lawful,
    fun _ _ _ s => s.encode_eq, ?_⟩
  intro riskDefinition changes
  rw [← DistinctList.toList_ofList]
  rfl

end TemplateCatalog
