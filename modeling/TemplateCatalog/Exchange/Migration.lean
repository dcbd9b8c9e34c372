import TemplateCatalog.Exchange.Model
import TemplateCatalog.Migration.Evaluate

/-!
# JSON forms of changes and outcomes

Axes, targets, changes, effects, breaking changes and outcomes are told by a tag
beside their fields. A change set drops changes that are repeated.
-/

namespace TemplateCatalog

instance : JsonForm Axis where
  encode
    | .category id => .obj [("axis", .str "CATEGORY"), ("id", encode id)]
    | .probability => .obj [("axis", .str "PROBABILITY")]
    | .impact category => .obj [("axis", .str "IMPACT"), ("category", encode category)]
    | .riskValue => .obj [("axis", .str "RISK_VALUE")]
    | .matrix category => .obj [("axis", .str "MATRIX"), ("category", encode category)]
  decodeIn s j := do
    let (name, fields) ← j.variant? "axis"
      ["CATEGORY", "PROBABILITY", "IMPACT", "RISK_VALUE", "MATRIX"] s
    match name with
    | "CATEGORY" =>
      let r ← Record.ofJson? ["id"] .union fields
      return .category (← r.required "id")
    | "PROBABILITY" =>
      fields.fieldless?
      return .probability
    | "IMPACT" =>
      let r ← Record.ofJson? ["category"] .union fields
      return .impact (← r.required "category")
    | "RISK_VALUE" =>
      fields.fieldless?
      return .riskValue
    | "MATRIX" =>
      let r ← Record.ofJson? ["category"] .union fields
      return .matrix (← r.required "category")
    | _ => none

instance : JsonForm ChangeTarget where
  encode
    | .definition => .obj [("kind", .str "DEFINITION")]
    | .probability => .obj [("kind", .str "PROBABILITY")]
    | .probabilityLevel index =>
      .obj [("kind", .str "PROBABILITY_LEVEL"), ("index", encode index)]
    | .riskValue index => .obj [("kind", .str "RISK_VALUE"), ("index", encode index)]
    | .category id => .obj [("kind", .str "CATEGORY"), ("id", encode id)]
    | .impact category index =>
      .obj [("kind", .str "IMPACT"), ("category", encode category), ("index", encode index)]
    | .matrixCell category cell =>
      .obj [("kind", .str "MATRIX_CELL"), ("category", encode category), ("cell", encode cell)]
  decodeIn s j := do
    let (name, fields) ← j.variant? "kind"
      ["DEFINITION", "PROBABILITY", "PROBABILITY_LEVEL", "RISK_VALUE", "CATEGORY", "IMPACT",
        "MATRIX_CELL"] s
    match name with
    | "DEFINITION" =>
      fields.fieldless?
      return .definition
    | "PROBABILITY" =>
      fields.fieldless?
      return .probability
    | "PROBABILITY_LEVEL" =>
      let r ← Record.ofJson? ["index"] .union fields
      return .probabilityLevel (← r.required "index")
    | "RISK_VALUE" =>
      let r ← Record.ofJson? ["index"] .union fields
      return .riskValue (← r.required "index")
    | "CATEGORY" =>
      let r ← Record.ofJson? ["id"] .union fields
      return .category (← r.required "id")
    | "IMPACT" =>
      let r ← Record.ofJson? ["category", "index"] .union fields
      return .impact (← r.required "category") (← r.required "index")
    | "MATRIX_CELL" =>
      let r ← Record.ofJson? ["category", "cell"] .union fields
      return .matrixCell (← r.required "category") (← r.required "cell")
    | _ => none

instance : JsonForm Change where
  encode
    | .newDefinition riskDefinition =>
      .obj [("type", .str "NEW_RISK_DEFINITION"), ("risk_definition", encode riskDefinition)]
    | .color target old new =>
      .obj [("type", .str "COLOR_DIFF"), ("target", encode target), ("old", encode old),
        ("new", encode new)]
    | .add axis index label =>
      .obj [("type", .str "RISK_MATRIX_ADD"), ("dimension", encode axis),
        ("index", encode index), ("label", encode label)]
    | .remove axis index label =>
      .obj [("type", .str "RISK_MATRIX_REMOVE"), ("dimension", encode axis),
        ("index", encode index), ("label", encode label)]
    | .cellValue category cell old new =>
      .obj [("type", .str "RISK_MATRIX_DIFF"), ("category", encode category),
        ("cell", encode cell), ("old", encode old), ("new", encode new)]
    | .text target locale field old new =>
      .obj [("type", .str "TRANSLATION_DIFF"), ("target", encode target),
        ("locale", encode locale), ("field", encode field), ("old", encode old),
        ("new", encode new)]
  decodeIn s j := do
    let (name, fields) ← j.variant? "type"
      ["NEW_RISK_DEFINITION", "COLOR_DIFF", "RISK_MATRIX_ADD", "RISK_MATRIX_REMOVE",
        "RISK_MATRIX_DIFF", "TRANSLATION_DIFF"] s
    match name with
    | "NEW_RISK_DEFINITION" =>
      let r ← Record.ofJson? ["risk_definition"] .union fields
      return .newDefinition (← r.required "risk_definition")
    | "COLOR_DIFF" =>
      let r ← Record.ofJson? ["target", "old", "new"] .union fields
      return .color (← r.required "target") (← r.optional "old") (← r.optional "new")
    | "RISK_MATRIX_ADD" =>
      let r ← Record.ofJson? ["dimension", "index", "label"] .union fields
      return .add (← r.required "dimension") (← r.required "index") (← r.optional "label")
    | "RISK_MATRIX_REMOVE" =>
      let r ← Record.ofJson? ["dimension", "index", "label"] .union fields
      return .remove (← r.required "dimension") (← r.required "index") (← r.optional "label")
    | "RISK_MATRIX_DIFF" =>
      let r ← Record.ofJson? ["category", "cell", "old", "new"] .union fields
      return .cellValue (← r.required "category") (← r.required "cell") (← r.required "old")
        (← r.required "new")
    | "TRANSLATION_DIFF" =>
      let r ← Record.ofJson? ["target", "locale", "field", "old", "new"] .union fields
      return .text (← r.required "target") (← r.required "locale") (← r.required "field")
        (← r.optional "old") (← r.optional "new")
    | _ => none

instance : JsonForm ChangeEffect where
  encode
    | .recalculation => .obj [("effect", .str "RISK_RECALCULATION")]
    | .categoryAddition category =>
      .obj [("effect", .str "RISK_VALUE_CATEGORY_ADDITION"), ("category", encode category)]
    | .categoryRemoval category =>
      .obj [("effect", .str "RISK_VALUE_CATEGORY_REMOVAL"), ("category", encode category)]
  decodeIn s j := do
    let (name, fields) ← j.variant? "effect"
      ["RISK_RECALCULATION", "RISK_VALUE_CATEGORY_ADDITION", "RISK_VALUE_CATEGORY_REMOVAL"] s
    match name with
    | "RISK_RECALCULATION" =>
      fields.fieldless?
      return .recalculation
    | "RISK_VALUE_CATEGORY_ADDITION" =>
      let r ← Record.ofJson? ["category"] .union fields
      return .categoryAddition (← r.required "category")
    | "RISK_VALUE_CATEGORY_REMOVAL" =>
      let r ← Record.ofJson? ["category"] .union fields
      return .categoryRemoval (← r.required "category")
    | _ => none

instance : JsonForm ChangeSet where
  encode s := .obj [("risk_definition", encode s.riskDefinition), ("changes", encode s.changes)]
  decodeIn s j := do
    let r ← Record.ofJson? ["risk_definition", "changes"] s j
    return { riskDefinition := ← r.required "risk_definition", changes := ← r.required "changes" }

instance : JsonForm BreakingChange where
  encode
    | .unaccepted riskDefinition change =>
      .obj [("type", .str "UNACCEPTED_CHANGE"), ("risk_definition", encode riskDefinition),
        ("change", encode change)]
    | .riskValueInUse riskDefinition category cell element change =>
      .obj [("type", .str "RISK_VALUE_IN_USE"), ("risk_definition", encode riskDefinition),
        ("category", encode category), ("cell", encode cell), ("element", encode element),
        ("change", encode change)]
    | .riskDefinitionRemoved riskDefinition element =>
      .obj [("type", .str "RISK_DEFINITION_REMOVED"),
        ("risk_definition", encode riskDefinition), ("element", encode element)]
    | .subTypeInUse elementType subType element =>
      .obj [("type", .str "SUB_TYPE_IN_USE"), ("element_type", encode elementType),
        ("sub_type", encode subType), ("element", encode element)]
    | .statusInUse elementType subType status element =>
      .obj [("type", .str "STATUS_IN_USE"), ("element_type", encode elementType),
        ("sub_type", encode subType), ("status", encode status), ("element", encode element)]
    | .attributeInUse elementType aspect key change element =>
      .obj [("type", .str "ATTRIBUTE_IN_USE"), ("element_type", encode elementType),
        ("aspect", encode aspect), ("attribute", encode key), ("change", encode change),
        ("element", encode element)]
  decodeIn s j := do
    let (name, fields) ← j.variant? "type"
      ["UNACCEPTED_CHANGE", "RISK_VALUE_IN_USE", "RISK_DEFINITION_REMOVED", "SUB_TYPE_IN_USE",
        "STATUS_IN_USE", "ATTRIBUTE_IN_USE"] s
    match name with
    | "UNACCEPTED_CHANGE" =>
      let r ← Record.ofJson? ["risk_definition", "change"] .union fields
      return .unaccepted (← r.required "risk_definition") (← r.required "change")
    | "RISK_VALUE_IN_USE" =>
      let r ← Record.ofJson? ["risk_definition", "category", "cell", "element", "change"] .union fields
      return .riskValueInUse (← r.required "risk_definition") (← r.required "category")
        (← r.required "cell") (← r.required "element") (← r.required "change")
    | "RISK_DEFINITION_REMOVED" =>
      let r ← Record.ofJson? ["risk_definition", "element"] .union fields
      return .riskDefinitionRemoved (← r.required "risk_definition") (← r.required "element")
    | "SUB_TYPE_IN_USE" =>
      let r ← Record.ofJson? ["element_type", "sub_type", "element"] .union fields
      return .subTypeInUse (← r.required "element_type") (← r.required "sub_type")
        (← r.required "element")
    | "STATUS_IN_USE" =>
      let r ← Record.ofJson? ["element_type", "sub_type", "status", "element"] .union fields
      return .statusInUse (← r.required "element_type") (← r.required "sub_type")
        (← r.required "status") (← r.required "element")
    | "ATTRIBUTE_IN_USE" =>
      let r ← Record.ofJson? ["element_type", "aspect", "attribute", "change", "element"] .union fields
      return .attributeInUse (← r.required "element_type") (← r.required "aspect")
        (← r.required "attribute") (← r.required "change") (← r.required "element")
    | _ => none

instance : JsonForm Trail where
  encode t := encode t.states
  decodeIn s j := (decodeIn s j).map Trail.mk

instance : JsonForm MigrationOutcome where
  encode
    | .migrated domain changes trail =>
      .obj [("state", .str "MIGRATED"), ("domain", encode domain), ("changes", encode changes),
        ("trail", encode trail)]
    | .blocked breaking changes trail =>
      .obj [("state", .str "BLOCKED"), ("breaking_changes", encode breaking),
        ("changes", encode changes), ("trail", encode trail)]
  decodeIn s j := do
    let (name, fields) ← j.variant? "state" ["MIGRATED", "BLOCKED"] s
    match name with
    | "MIGRATED" =>
      let r ← Record.ofJson? ["domain", "changes", "trail"] .union fields
      return .migrated (← r.required "domain") (← r.required "changes") (← r.required "trail")
    | "BLOCKED" =>
      let r ← Record.ofJson? ["breaking_changes", "changes", "trail"] .union fields
      return .blocked (← r.required "breaking_changes") (← r.required "changes")
        (← r.required "trail")
    | _ => none

end TemplateCatalog
