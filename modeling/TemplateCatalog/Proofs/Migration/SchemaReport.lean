import TemplateCatalog.Proofs.Migration.Damage

/-!
# The report of a schema in use

The types of a domain are compared one by one, and within a type the sub-types,
the statuses and the attributes. Element types name the definitions and ids name
the elements, so what the report says of an element is what a report on this
element alone says, by the definition of its type
(`mem_elementTypeBreaks_iff_alone`). From there it is a matter of one element and
two definitions.

Results:
1. `Migration.exists_element_of_mem_breaking`: every element that is named belongs
   to the domain.
2. `ElementTypeDefinition.exists_aboutStatus_iff`: an element is named for its
   sub-type or status exactly if it may not keep them.
3. `ElementTypeDefinition.attributeInUse_mem_breaks_iff`: it is named for an
   attribute exactly if the attribute is gone or not compatible.
4. `schemaReport_exact`: the same of the outcome of an evaluation.
-/

namespace TemplateCatalog

namespace BreakingChange

/-- The entry says that an element may not keep its sub-type or its status. -/
inductive AboutStatus (e : ElementId) : BreakingChange → Prop
  | subType {type : ElementType} {subType : String} :
      AboutStatus e (.subTypeInUse type subType e)
  | status {type : ElementType} {subType status : String} :
      AboutStatus e (.statusInUse type subType status e)

/-- Whether the entry is about the schema of an element type. -/
def isAboutSchema : BreakingChange → Bool
  | .unaccepted .. | .riskValueInUse .. | .riskDefinitionRemoved .. => false
  | .subTypeInUse .. | .statusInUse .. | .attributeInUse .. => true

end BreakingChange

theorem AttributeDefinition.change?_eq_some_iff {old : AttributeDefinition}
    {new : Option AttributeDefinition} {change : AttributeChange} :
    old.change? new = some change ↔
      change = .removal ∧ new = none ∨
        change = .modification ∧ ∃ kept, new = some kept ∧ isCompatible old kept = false := by
  unfold change?
  cases new with
  | none =>
    constructor
    · rintro ⟨⟩
      exact .inl ⟨rfl, rfl⟩
    · rintro (⟨rfl, -⟩ | ⟨-, _, missing, -⟩)
      · rfl
      · cases missing
  | some kept =>
    cases compatible : isCompatible old kept with
    | true => simp [compatible]
    | false => simpa [compatible] using eq_comm

/-! ## One element and the definition of its type -/

namespace ElementTypeDefinition

variable {d : ElementTypeDefinition} {new : Option ElementTypeDefinition}
  {elements : List Element} {e : Element} {b : BreakingChange}

/-- A report on elements consists of the reports on each of them. -/
theorem mem_breaks_iff_alone :
    b ∈ d.breaks new elements ↔ ∃ e ∈ elements, b ∈ d.breaks new [e] := by
  simp only [mem_breaks, mem_subTypeBreaks, mem_attributeBreaks, List.mem_singleton,
    exists_eq_left]
  constructor
  · rintro (⟨subType, definition, defined, e, he, lost⟩ |
      ⟨aspect, key, definition, defined, e, he, lost⟩)
    · exact ⟨e, he, .inl ⟨subType, definition, defined, lost⟩⟩
    · exact ⟨e, he, .inr ⟨aspect, key, definition, defined, lost⟩⟩
  · rintro ⟨e, he, ⟨subType, definition, defined, lost⟩ |
      ⟨aspect, key, definition, defined, lost⟩⟩
    · exact .inl ⟨subType, definition, defined, e, he, lost⟩
    · exact .inr ⟨aspect, key, definition, defined, e, he, lost⟩

/-- A report on one element is about this element, and there is one only for its own type. -/
theorem element?_of_mem_breaks (h : b ∈ d.breaks new [e]) :
    e.elementType = d.elementType ∧ b.element? = some e.id := by
  simp only [mem_breaks, mem_subTypeBreaks, mem_attributeBreaks, List.mem_singleton,
    exists_eq_left] at h
  rcases h with ⟨_, _, -, type, -, ⟨-, rfl⟩ | ⟨_, _, -, -, -, -, rfl⟩⟩ |
    ⟨_, _, _, -, type, -, _, -, rfl⟩
  · exact ⟨type, rfl⟩
  · exact ⟨type, rfl⟩
  · exact ⟨type, rfl⟩

/-- An element is named for its sub-type or its status exactly if it may not keep them. -/
theorem exists_aboutStatus_iff (type : e.elementType = d.elementType) {subType status : String}
    (hsub : e.subType = some subType) (hstatus : e.status = some status)
    (allowed : d.allows subType status = true) :
    (∃ b ∈ d.breaks new [e], b.AboutStatus e.id) ↔
      ¬ ∃ d', new = some d' ∧ d'.allows subType status = true := by
  rw [exists_allows_iff]
  constructor
  · rintro ⟨b, hb, about⟩ ⟨kept, hkept, listed⟩
    rcases mem_breaks.mp hb with ⟨subType', definition, -, hb⟩ | ⟨_, _, _, -, hb⟩
    · obtain ⟨e', he', -, hsub', lost⟩ := mem_subTypeBreaks.mp hb
      cases List.mem_singleton.mp he'
      cases hsub.symm.trans hsub'
      rcases lost with ⟨gone, -⟩ | ⟨kept', status', found, -, gone, hstatus', -⟩
      · cases gone.symm.trans hkept
      · cases hstatus.symm.trans hstatus'
        cases found.symm.trans hkept
        exact gone listed
    · obtain ⟨_, -, -, -, _, -, rfl⟩ := mem_attributeBreaks.mp hb
      cases about
  · intro refused
    obtain ⟨definition, defined, listed⟩ := allows_iff.mp allowed
    have reported (b : BreakingChange) (hb : b ∈ d.subTypeBreaks new [e] subType definition) :
        b ∈ d.breaks new [e] := mem_breaks.mpr (.inl ⟨subType, definition, defined, hb⟩)
    -- either the sub-type is gone, or it is kept without the status
    cases found : new.bind fun d => d.subTypes.get? subType with
    | none =>
      exact ⟨_, reported _ (mem_subTypeBreaks.mpr
        ⟨e, List.mem_cons_self, type, hsub, .inl ⟨found, rfl⟩⟩), .subType⟩
    | some kept =>
      have gone : status ∉ kept.statuses := fun still => refused ⟨kept, found, still⟩
      exact ⟨_, reported _ (mem_subTypeBreaks.mpr ⟨e, List.mem_cons_self, type, hsub,
        .inr ⟨kept, status, found, listed, gone, hstatus, rfl⟩⟩), .status⟩

/-- An element with a value of an attribute is named for it exactly if the attribute is gone or not
compatible, and the entry says which. -/
theorem attributeInUse_mem_breaks_iff (type : e.elementType = d.elementType) {aspect key : String}
    {definition : AttributeDefinition}
    (defined : d.attributeDefinition? aspect key = some definition)
    (hvalue : e.attributeValue? aspect key ≠ none) {t : ElementType} {change : AttributeChange} :
    .attributeInUse t aspect key change e.id ∈ d.breaks new [e] ↔
      t = e.elementType ∧
        definition.change? (new.bind fun d' => d'.attributeDefinition? aspect key) =
          some change := by
  constructor
  · intro hb
    rcases mem_breaks.mp hb with ⟨_, _, -, hb⟩ | ⟨aspect', key', definition', defined', hb⟩
    · obtain ⟨_, -, -, -, ⟨-, other⟩ | ⟨_, _, -, -, -, -, other⟩⟩ := mem_subTypeBreaks.mp hb
      · cases other
      · cases other
    · obtain ⟨e', he', -, -, change', changed, same⟩ := mem_attributeBreaks.mp hb
      cases List.mem_singleton.mp he'
      cases same
      cases defined.symm.trans defined'
      exact ⟨type.symm, changed⟩
  · rintro ⟨rfl, changed⟩
    rw [type]
    exact mem_breaks.mpr (.inr ⟨aspect, key, definition, defined,
      mem_attributeBreaks.mpr ⟨e, List.mem_cons_self, type, hvalue, change, changed, rfl⟩⟩)

end ElementTypeDefinition

/-! ## All types and elements -/

/-- What is reported of an element is what a report on this element alone says. -/
theorem mem_elementTypeBreaks_iff_alone {old new : List ElementTypeDefinition}
    {elements : List Element} (types : (old.map (·.elementType)).Nodup)
    (ids : (elements.map (·.id)).Nodup) {e : Element} (he : e ∈ elements)
    {d : ElementTypeDefinition} (hd : findElementType? old e.elementType = some d)
    {b : BreakingChange} (named : b.element? = some e.id) :
    b ∈ elementTypeBreaks old new elements ↔
      b ∈ d.breaks (findElementType? new e.elementType) [e] := by
  obtain ⟨hold, type⟩ := findElementType?_eq_some hd
  rw [elementTypeBreaks, List.mem_flatMap]
  constructor
  · rintro ⟨d', hd', hb⟩
    obtain ⟨e', he', hb⟩ := ElementTypeDefinition.mem_breaks_iff_alone.mp hb
    obtain ⟨type', named'⟩ := ElementTypeDefinition.element?_of_mem_breaks hb
    cases List.inj_on_of_nodup_map ids he' he (Option.some.inj (named'.symm.trans named))
    have found := findElementType?_of_mem types hd'
    rw [← type', hd] at found
    cases found
    rwa [← type'] at hb
  · intro hb
    rw [← type] at hb
    exact ⟨d, hold, ElementTypeDefinition.mem_breaks_iff_alone.mpr ⟨e, he, hb⟩⟩

namespace Migration

variable {m : Migration} {b : BreakingChange}

/-- Damage is done to a risk value, a risk definition in use, or the schema. -/
theorem mem_damage (h : b ∈ m.damage) :
    (∃ e ∈ m.elements, ∃ d i ref change, b = .riskValueInUse d i ref e.id change) ∨
      (∃ e ∈ m.elements, ∃ d, b = .riskDefinitionRemoved d e.id) ∨
      b ∈ elementTypeBreaks m.domain.elementTypes m.template.elementTypes m.elements := by
  unfold damage at h
  rcases List.mem_append.mp h with h | schema
  · rcases List.mem_append.mp h with values | removed
    · obtain ⟨new, -, hb⟩ := List.mem_flatMap.mp values
      unfold definitionDamage at hb
      split at hb
      · obtain ⟨change, -, hb⟩ := List.mem_flatMap.mp hb
        obtain ⟨e, he, v, -, -, -, rfl⟩ := Change.mem_valuesInUse.mp hb
        exact .inl ⟨e, he, _, _, _, _, rfl⟩
      · cases hb
    · obtain ⟨r, -, -, e, he, -, rfl⟩ := mem_removedRiskDefinitions.mp removed
      exact .inr (.inl ⟨e, he, _, rfl⟩)
  · exact .inr (.inr schema)

theorem mem_damage_of_named {id : ElementId} (h : b ∈ m.breaking) (named : b.element? = some id) :
    b ∈ m.damage := by
  rw [← filter_breaking]
  exact List.mem_filter.mpr ⟨h, by rw [BreakingChange.namesElement, named, Option.isSome_some]⟩

/-- Every element that is named belongs to the domain. -/
theorem exists_element_of_mem_breaking {id : ElementId} (h : b ∈ m.breaking)
    (named : b.element? = some id) : ∃ e ∈ m.elements, e.id = id := by
  rcases mem_damage (mem_damage_of_named h named) with
    ⟨e, he, _, _, _, _, rfl⟩ | ⟨e, he, _, rfl⟩ | schema
  · exact ⟨e, he, Option.some.inj named⟩
  · exact ⟨e, he, Option.some.inj named⟩
  · obtain ⟨d, -, hb⟩ := List.mem_flatMap.mp schema
    obtain ⟨e, he, hb⟩ := ElementTypeDefinition.mem_breaks_iff_alone.mp hb
    obtain ⟨-, named'⟩ := ElementTypeDefinition.element?_of_mem_breaks hb
    exact ⟨e, he, Option.some.inj (named'.symm.trans named)⟩

/-- Entries about the schema come from the comparison of the element types. -/
theorem mem_breaking_iff_of_isAboutSchema (schema : b.isAboutSchema = true) :
    b ∈ m.breaking ↔
      b ∈ elementTypeBreaks m.domain.elementTypes m.template.elementTypes m.elements := by
  constructor
  · intro h
    have named : ∃ id, b.element? = some id := by
      cases b with
      | unaccepted | riskValueInUse | riskDefinitionRemoved => cases schema
      | subTypeInUse | statusInUse | attributeInUse => exact ⟨_, rfl⟩
    obtain ⟨id, named⟩ := named
    rcases mem_damage (mem_damage_of_named h named) with
      ⟨_, -, _, _, _, _, rfl⟩ | ⟨_, -, _, rfl⟩ | found
    · cases schema
    · cases schema
    · exact found
  · exact fun h => List.mem_append_right _ h

/-- What is reported of the schema of an element of the domain. -/
theorem mem_breaking_iff_alone (types : (m.domain.elementTypes.map (·.elementType)).Nodup)
    (ids : (m.elements.map (·.id)).Nodup) {e : Element} (he : e ∈ m.elements)
    {d : ElementTypeDefinition} (hd : m.domain.elementType? e.elementType = some d)
    (schema : b.isAboutSchema = true) (named : b.element? = some e.id) :
    b ∈ m.breaking ↔
      b ∈ d.breaks (findElementType? m.template.elementTypes e.elementType) [e] :=
  (mem_breaking_iff_of_isAboutSchema schema).trans
    (mem_elementTypeBreaks_iff_alone types ids he hd named)

end Migration

/-! ## Evaluations -/

/-- An evaluation names an element of the domain for its sub-type or status exactly if the template
no longer allows them, and for an attribute that it has a value of exactly if the template lacks
the attribute or defines it incompatibly. It names no element of another domain. -/
theorem schemaReport_exact (domain : Domain) (template : DomainTemplate) (elements : List Element)
    (accepted inert : EnumSet ChangeKind) (o : MigrationOutcome)
    (types : (domain.elementTypes.map (·.elementType)).Nodup)
    (ids : (elements.map (·.id)).Nodup)
    (answer : evaluateMigration domain template elements accepted inert = .ok o) :
    (∀ e ∈ elements, e.domain = domain.id →
      ∀ d, domain.elementType? e.elementType = some d →
      (∀ subType status, e.subType = some subType → e.status = some status →
        d.allows subType status = true →
        ((∃ b ∈ o.breaking, b.AboutStatus e.id) ↔
          ¬ ∃ d', findElementType? template.elementTypes e.elementType = some d' ∧
            d'.allows subType status = true)) ∧
      ∀ aspect key definition, d.attributeDefinition? aspect key = some definition →
        e.attributeValue? aspect key ≠ none →
        let new := (findElementType? template.elementTypes e.elementType).bind fun d' =>
          d'.attributeDefinition? aspect key
        ∀ type change, .attributeInUse type aspect key change e.id ∈ o.breaking ↔
          type = e.elementType ∧
            (change = .removal ∧ new = none ∨
              change = .modification ∧
                ∃ kept, new = some kept ∧ definition.isCompatible kept = false)) ∧
    ∀ e ∈ elements, e.domain ≠ domain.id → ∀ b ∈ o.breaking, b.element? ≠ some e.id := by
  obtain ⟨-, -, rfl⟩ := evaluateMigration_eq_ok_iff.mp answer
  let m := Migration.ofElements domain template elements accepted inert
  rw [m.verdict_breaking]
  have ids' : (m.elements.map (·.id)).Nodup := ids.sublist (List.filter_sublist.map _)
  constructor
  · intro e he ofDomain d hd
    have he' : e ∈ m.elements := List.mem_filter.mpr ⟨he, decide_eq_true ofDomain⟩
    have type : e.elementType = d.elementType := (findElementType?_eq_some hd).2.symm
    constructor
    · intro subType status hsub hstatus allowed
      rw [← ElementTypeDefinition.exists_aboutStatus_iff type hsub hstatus allowed]
      refine exists_congr fun b => and_congr_left fun about => ?_
      cases about with
      | subType => exact Migration.mem_breaking_iff_alone types ids' he' hd rfl rfl
      | status => exact Migration.mem_breaking_iff_alone types ids' he' hd rfl rfl
    · intro aspect key definition defined hvalue new t change
      rw [← AttributeDefinition.change?_eq_some_iff,
        ← ElementTypeDefinition.attributeInUse_mem_breaks_iff type defined hvalue]
      exact Migration.mem_breaking_iff_alone types ids' he' hd rfl rfl
  · intro e he foreign b hb named
    obtain ⟨e', he', sameId⟩ := Migration.exists_element_of_mem_breaking hb named
    obtain ⟨he', ofDomain⟩ := List.mem_filter.mp he'
    cases List.inj_on_of_nodup_map ids he' he sameId
    exact foreign (of_decide_eq_true ofDomain)

/-- The status of a server is dropped, the values of one of its attributes are narrowed and another
attribute is gone; all three are reported, and nothing of the equal server in another domain. -/
theorem schemaReport_exact_of_retired_server :
    let assets (statuses systems : List String) : ElementTypeDefinition :=
      (ElementTypeDefinition.withSubType { elementType := .asset } "server" statuses).withAttribute
        "details" "system" (.enum systems)
    let old : DomainTemplate :=
      { id := ⟨⟨0⟩⟩
        name := "template"
        version := {}
        elementTypes :=
          [(assets ["running", "retired"] ["bsd", "linux"]).withAttribute "details" "room" .text] }
    let new : DomainTemplate := { old with elementTypes := [assets ["running"] ["linux"]] }
    let server (id domain : Nat) : Element :=
      { id := ⟨⟨id⟩⟩
        owner := ⟨⟨0⟩⟩
        domain := ⟨⟨domain⟩⟩
        name := "server"
        elementType := .asset
        subType := some "server"
        status := some "retired"
        customAspects :=
          .singleton "details" (.ofEntries [("room", default), ("system", default)]) }
    ∃ o, evaluateMigration (.ofTemplate ⟨⟨1⟩⟩ old) new [server 5 1, server 6 2] ∅ ∅ = .ok o ∧
      (∃ b ∈ o.breaking, b.AboutStatus ⟨⟨5⟩⟩) ∧
      .attributeInUse .asset "details" "system" .modification ⟨⟨5⟩⟩ ∈ o.breaking ∧
      .attributeInUse .asset "details" "room" .removal ⟨⟨5⟩⟩ ∈ o.breaking ∧
      ∀ b ∈ o.breaking, b.element? ≠ some ⟨⟨6⟩⟩ := by
  intro assets old new server
  have answer : evaluateMigration (.ofTemplate ⟨⟨1⟩⟩ old) new [server 5 1, server 6 2] ∅ ∅ =
      .ok _ := evaluateMigration_eq_ok_iff.mpr ⟨by decide, by decide, rfl⟩
  obtain ⟨ofDomain, foreign⟩ := schemaReport_exact _ _ _ _ _ _ (by decide) (by decide) answer
  obtain ⟨ofStatus, ofAttribute⟩ := ofDomain (server 5 1) List.mem_cons_self rfl _ rfl
  refine ⟨_, answer, ?_, ?_, ?_, ?_⟩
  · refine (ofStatus "server" "retired" rfl rfl (by decide)).mpr ?_
    rintro ⟨_, ⟨⟩, allowed⟩
    exact absurd allowed (by decide)
  · exact (ofAttribute "details" "system" (.enum ["bsd", "linux"]) rfl (by decide) _ _).mpr
      ⟨rfl, .inr ⟨rfl, .enum ["linux"], rfl, by decide⟩⟩
  · exact (ofAttribute "details" "room" .text rfl (by decide) _ _).mpr ⟨rfl, .inl ⟨rfl, rfl⟩⟩
  · exact foreign (server 6 2) (by simp) (by decide)

end TemplateCatalog
