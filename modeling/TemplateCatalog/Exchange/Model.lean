import TemplateCatalog.Json.Record
import TemplateCatalog.Model.Domain

/-!
# JSON forms of the model

Records are written with all their fields in the order of declaration. Kinds of
references and types of attributes are unions; the fields of a reference's kind
stand beside its own.
-/

namespace TemplateCatalog

/-! ## Risk definitions -/

instance : JsonForm Level where
  encode l := .obj
    [("ordinal", encode l.ordinal), ("html_color", encode l.color),
      ("translations", encode l.translations)]
  decodeIn s j := do
    let r ← Record.ofJson? ["ordinal", "html_color", "translations"] s j
    return {
      ordinal := ← r.required "ordinal"
      color := ← r.withDefault "html_color" none
      translations := ← r.withDefault "translations" ∅ }

instance : JsonForm ProbabilityScale where
  encode p := .obj [("levels", encode p.levels), ("translations", encode p.translations)]
  decodeIn s j := do
    let r ← Record.ofJson? ["levels", "translations"] s j
    return {
      levels := ← r.required "levels"
      translations := ← r.withDefault "translations" ∅ }

instance : JsonForm MatrixCell where
  encode c := .obj [("value", encode c.value), ("html_color", encode c.color)]
  decodeIn s j := do
    let r ← Record.ofJson? ["value", "html_color"] s j
    return { value := ← r.required "value", color := ← r.withDefault "html_color" none }

instance : JsonForm Category where
  encode c := .obj
    [("id", encode c.id), ("potential_impacts", encode c.impacts),
      ("value_matrix", encode c.matrix), ("translations", encode c.translations)]
  decodeIn s j := do
    let r ← Record.ofJson? ["id", "potential_impacts", "value_matrix", "translations"] s j
    return {
      id := ← r.required "id"
      impacts := ← r.required "potential_impacts"
      matrix := ← r.withDefault "value_matrix" none
      translations := ← r.withDefault "translations" ∅ }

instance : JsonForm RiskDefinition where
  encode d := .obj
    [("id", encode d.id), ("probability", encode d.probability),
      ("risk_values", encode d.riskValues), ("categories", encode d.categories),
      ("translations", encode d.translations)]
  decodeIn s j := do
    let r ← Record.ofJson? ["id", "probability", "risk_values", "categories", "translations"] s j
    return {
      id := ← r.required "id"
      probability := ← r.required "probability"
      riskValues := ← r.required "risk_values"
      categories := ← r.withDefault "categories" []
      translations := ← r.withDefault "translations" ∅ }

/-! ## Elements and units -/

instance : JsonForm CellRef where
  encode c := .obj [("row", encode c.row), ("column", encode c.column)]
  decodeIn s j := do
    let r ← Record.ofJson? ["row", "column"] s j
    return { row := ← r.required "row", column := ← r.required "column" }

instance : JsonForm RiskValueRef where
  encode v := .obj
    [("risk_definition", encode v.riskDefinition), ("category", encode v.category),
      ("cell", encode v.cell)]
  decodeIn s j := do
    let r ← Record.ofJson? ["risk_definition", "category", "cell"] s j
    return {
      riskDefinition := ← r.required "risk_definition"
      category := ← r.required "category"
      cell := ← r.required "cell" }

instance : JsonForm Risk where
  encode x := .obj
    [("scenario", encode x.scenario), ("domain", encode x.domain), ("owner", encode x.owner),
      ("mitigation", encode x.mitigation), ("values", encode x.values)]
  decodeIn s j := do
    let r ← Record.ofJson? ["scenario", "domain", "owner", "mitigation", "values"] s j
    return {
      scenario := ← r.required "scenario"
      domain := ← r.required "domain"
      owner := ← r.optional "owner"
      mitigation := ← r.optional "mitigation"
      values := ← r.withDefault "values" [] }

instance : JsonForm AppliedItem where
  encode a := .obj [("item", encode a.item), ("version", encode a.version)]
  decodeIn s j := do
    let r ← Record.ofJson? ["item", "version"] s j
    return { item := ← r.required "item", version := ← r.required "version" }

instance : JsonForm CustomLink where
  encode l := .obj
    [("link_type", encode l.linkType), ("target", encode l.target), ("domain", encode l.domain),
      ("attributes", encode l.attributes)]
  decodeIn s j := do
    let r ← Record.ofJson? ["link_type", "target", "domain", "attributes"] s j
    return {
      linkType := ← r.required "link_type"
      target := ← r.required "target"
      domain := ← r.required "domain"
      attributes := ← r.withDefault "attributes" ∅ }

instance : JsonForm ControlImplementation where
  encode c := .obj
    [("control", encode c.control), ("responsible", encode c.responsible),
      ("description", encode c.description)]
  decodeIn s j := do
    let r ← Record.ofJson? ["control", "responsible", "description"] s j
    return {
      control := ← r.required "control"
      responsible := ← r.optional "responsible"
      description := ← r.optional "description" }

instance : JsonForm RequirementImplementation where
  encode x := .obj
    [("control", encode x.control), ("status", encode x.status),
      ("statement", encode x.statement), ("responsible", encode x.responsible)]
  decodeIn s j := do
    let r ← Record.ofJson? ["control", "status", "statement", "responsible"] s j
    return {
      control := ← r.required "control"
      status := ← r.required "status"
      statement := ← r.optional "statement"
      responsible := ← r.optional "responsible" }

def elementFields : List String :=
  ["id", "owner", "domain", "name", "abbreviation", "description", "element_type", "sub_type",
    "status", "applied_item", "custom_aspects", "links", "parts", "members", "risks",
    "control_implementations", "requirement_implementations"]

instance : JsonForm Element where
  encode e := .obj
    [("id", encode e.id), ("owner", encode e.owner), ("domain", encode e.domain),
      ("name", encode e.name), ("abbreviation", encode e.abbreviation),
      ("description", encode e.description), ("element_type", encode e.elementType),
      ("sub_type", encode e.subType), ("status", encode e.status),
      ("applied_item", encode e.appliedItem), ("custom_aspects", encode e.customAspects),
      ("links", encode e.links), ("parts", encode e.parts), ("members", encode e.members),
      ("risks", encode e.risks), ("control_implementations", encode e.controlImplementations),
      ("requirement_implementations", encode e.requirementImplementations)]
  decodeIn s j := do
    let r ← Record.ofJson? elementFields s j
    return {
      id := ← r.required "id"
      owner := ← r.required "owner"
      domain := ← r.required "domain"
      name := ← r.required "name"
      abbreviation := ← r.optional "abbreviation"
      description := ← r.optional "description"
      elementType := ← r.required "element_type"
      subType := ← r.optional "sub_type"
      status := ← r.optional "status"
      appliedItem := ← r.optional "applied_item"
      customAspects := ← r.withDefault "custom_aspects" ∅
      links := ← r.withDefault "links" []
      parts := ← r.withDefault "parts" []
      members := ← r.withDefault "members" []
      risks := ← r.withDefault "risks" []
      controlImplementations := ← r.withDefault "control_implementations" []
      requirementImplementations := ← r.withDefault "requirement_implementations" [] }

instance : JsonForm OrgUnit where
  encode u := .obj [("id", encode u.id), ("name", encode u.name), ("domains", encode u.domains)]
  decodeIn s j := do
    let r ← Record.ofJson? ["id", "name", "domains"] s j
    return {
      id := ← r.required "id"
      name := ← r.required "name"
      domains := ← r.withDefault "domains" [] }

/-! ## Template items -/

instance : JsonForm ItemNamespace where
  encode
    | .domain id => .obj [("kind", .str "DOMAIN"), ("id", encode id)]
    | .profile id => .obj [("kind", .str "PROFILE"), ("id", encode id)]
  decodeIn s j := do
    let r ← Record.ofJson? ["kind", "id"] s j
    match ← r.variant? "kind" with
    | "DOMAIN" => return .domain (← r.required "id")
    | "PROFILE" => return .profile (← r.required "id")
    | _ => none

/-- The entries that tell the kind of a reference. -/
def ReferenceKind.entries (kind : ReferenceKind) : List (String × Json) :=
  ("type", encode kind.type) ::
    match kind with
    | .copy | .copyAlways | .part | .composite | .scope | .member => []
    | .link linkType attributes | .linkExternal linkType attributes =>
      [("link_type", encode linkType), ("attributes", encode attributes)]
    | .risk owner mitigation values =>
      [("owner", encode owner), ("mitigation", encode mitigation), ("values", encode values)]
    | .controlImplementation responsible description =>
      [("responsible", encode responsible), ("description", encode description)]
    | .requirementImplementation status statement responsible =>
      [("status", encode status), ("statement", encode statement),
        ("responsible", encode responsible)]

/-- The type and attributes of a link. -/
def linkFields? (fields : Json) : Option (String × Dictionary FreeForm) := do
  let r ← Record.ofJson? ["link_type", "attributes"] .union fields
  return (← r.required "link_type", ← r.withDefault "attributes" ∅)

/-- Reads the fields that go with a type of reference. -/
def ReferenceKind.ofType? (fields : Json) : ReferenceType → Option ReferenceKind
  | .copy => fields.fieldless?.map fun _ => .copy
  | .copyAlways => fields.fieldless?.map fun _ => .copyAlways
  | .part => fields.fieldless?.map fun _ => .part
  | .composite => fields.fieldless?.map fun _ => .composite
  | .scope => fields.fieldless?.map fun _ => .scope
  | .member => fields.fieldless?.map fun _ => .member
  | .link => (linkFields? fields).map fun f => .link f.1 f.2
  | .linkExternal => (linkFields? fields).map fun f => .linkExternal f.1 f.2
  | .risk => do
    let r ← Record.ofJson? ["owner", "mitigation", "values"] .union fields
    return .risk (← r.withDefault "owner" none) (← r.withDefault "mitigation" none)
      (← r.withDefault "values" [])
  | .controlImplementation => do
    let r ← Record.ofJson? ["responsible", "description"] .union fields
    return .controlImplementation (← r.withDefault "responsible" none)
      (← r.withDefault "description" none)
  | .requirementImplementation => do
    let r ← Record.ofJson? ["status", "statement", "responsible"] .union fields
    return .requirementImplementation (← r.withDefault "status" ImplementationStatus.unknown)
      (← r.withDefault "statement" none) (← r.withDefault "responsible" none)

instance : JsonForm ReferenceKind where
  encode kind := .obj kind.entries
  decodeIn s j := do
    let (name, fields) ← j.variant? "type" (Literal.names ReferenceType) s
    ReferenceKind.ofType? fields (← Literal.ofText? name)

/-- The entries of the kind stand beside the identifier and the target, as in a union. -/
instance : JsonForm TailoringReference where
  encode x := .obj (("id", encode x.id) :: ("target", encode x.target) :: x.kind.entries)
  decodeIn s j := do
    let r ← Record.ofEntries? ["id", "target"] s j
    return {
      id := ← r.required "id"
      target := ← r.required "target"
      kind := ← decodeIn .union j }

instance : JsonForm ReferenceFilter where
  encode f := .obj [("include", encode f.included), ("exclude", encode f.excluded)]
  decodeIn s j := do
    let r ← Record.ofJson? ["include", "exclude"] s j
    return { included := ← r.withDefault "include" none, excluded := ← r.withDefault "exclude" ∅ }

def templateItemFields : List String :=
  ["id", "namespace", "applied_catalog_item", "name", "abbreviation", "description",
    "element_type", "sub_type", "status", "custom_aspects", "template_version",
    "tailoring_references"]

instance : JsonForm TemplateItem where
  encode x := .obj
    [("id", encode x.id), ("namespace", encode x.nspace),
      ("applied_catalog_item", encode x.appliedCatalogItem), ("name", encode x.name),
      ("abbreviation", encode x.abbreviation), ("description", encode x.description),
      ("element_type", encode x.elementType), ("sub_type", encode x.subType),
      ("status", encode x.status), ("custom_aspects", encode x.customAspects),
      ("template_version", encode x.version), ("tailoring_references", encode x.references)]
  decodeIn s j := do
    let r ← Record.ofJson? templateItemFields s j
    return {
      id := ← r.required "id"
      nspace := ← r.required "namespace"
      appliedCatalogItem := ← r.withDefault "applied_catalog_item" none
      name := ← r.required "name"
      abbreviation := ← r.withDefault "abbreviation" none
      description := ← r.withDefault "description" none
      elementType := ← r.required "element_type"
      subType := ← r.withDefault "sub_type" none
      status := ← r.withDefault "status" none
      customAspects := ← r.withDefault "custom_aspects" ∅
      version := ← r.withDefault "template_version" {}
      references := ← r.withDefault "tailoring_references" [] }

/-! ## Domains, templates and profiles -/

namespace AttributeDefinition

def toJson : AttributeDefinition → Json
  | .text => .obj [("type", .str "TEXT")]
  | .integer => .obj [("type", .str "INTEGER")]
  | .boolean => .obj [("type", .str "BOOLEAN")]
  | .date => .obj [("type", .str "DATE")]
  | .enum allowedValues => .obj [("type", .str "ENUM"), ("allowed_values", encode allowedValues)]
  | .list item => .obj [("type", .str "LIST"), ("item", item.toJson)]

/-- Reads a definition in which lists nest less than `fuel` deep. -/
def ofJson? : (fuel : Nat) → Surroundings → Json → Option AttributeDefinition
  | 0, _, _ => none
  | fuel + 1, s, j => do
    let (name, fields) ← j.variant? "type" ["TEXT", "INTEGER", "BOOLEAN", "DATE", "ENUM", "LIST"] s
    match name with
    | "TEXT" =>
      fields.fieldless?
      return .text
    | "INTEGER" =>
      fields.fieldless?
      return .integer
    | "BOOLEAN" =>
      fields.fieldless?
      return .boolean
    | "DATE" =>
      fields.fieldless?
      return .date
    | "ENUM" =>
      let r ← Record.ofJson? ["allowed_values"] .union fields
      return .enum (← r.required "allowed_values")
    | "LIST" =>
      let r ← Record.ofJson? ["item"] .union fields
      let item ← r.get? "item"
      return .list (← ofJson? fuel .union item)
    | _ => none

end AttributeDefinition

instance : JsonForm AttributeDefinition where
  encode := AttributeDefinition.toJson
  decodeIn s j := AttributeDefinition.ofJson? j.nesting s j

instance : JsonForm SubTypeDefinition where
  encode d := .obj [("statuses", encode d.statuses), ("translations", encode d.translations)]
  decodeIn s j := do
    let r ← Record.ofJson? ["statuses", "translations"] s j
    return {
      statuses := ← r.required "statuses"
      translations := ← r.withDefault "translations" ∅ }

instance : JsonForm CustomAspectDefinition where
  encode d := .obj [("attributes", encode d.attributes)]
  decodeIn s j := do
    let r ← Record.ofJson? ["attributes"] s j
    return { attributes := ← r.withDefault "attributes" ∅ }

instance : JsonForm LinkDefinition where
  encode d := .obj
    [("target_type", encode d.targetType), ("target_sub_type", encode d.targetSubType),
      ("attributes", encode d.attributes)]
  decodeIn s j := do
    let r ← Record.ofJson? ["target_type", "target_sub_type", "attributes"] s j
    return {
      targetType := ← r.required "target_type"
      targetSubType := ← r.withDefault "target_sub_type" none
      attributes := ← r.withDefault "attributes" ∅ }

instance : JsonForm ElementTypeDefinition where
  encode d := .obj
    [("element_type", encode d.elementType), ("sub_types", encode d.subTypes),
      ("custom_aspects", encode d.customAspects), ("links", encode d.links),
      ("translations", encode d.translations)]
  decodeIn s j := do
    let r ← Record.ofJson?
      ["element_type", "sub_types", "custom_aspects", "links", "translations"] s j
    return {
      elementType := ← r.required "element_type"
      subTypes := ← r.withDefault "sub_types" ∅
      customAspects := ← r.withDefault "custom_aspects" ∅
      links := ← r.withDefault "links" ∅
      translations := ← r.withDefault "translations" ∅ }

instance : JsonForm IncarnationConfiguration where
  encode c := .obj
    [("mode", encode c.mode), ("lookup", encode c.lookup), ("include", encode c.included),
      ("exclude", encode c.excluded)]
  decodeIn s j := do
    let r ← Record.ofJson? ["mode", "lookup", "include", "exclude"] s j
    return {
      mode := ← r.withDefault "mode" RequestMode.closure
      lookup := ← r.withDefault "lookup" LookupPolicy.forReferencedItems
      included := ← r.withDefault "include" none
      excluded := ← r.withDefault "exclude" none }

instance : JsonForm DomainTemplate where
  encode t := .obj
    [("id", encode t.id), ("name", encode t.name), ("version", encode t.version),
      ("risk_definitions", encode t.riskDefinitions),
      ("element_type_definitions", encode t.elementTypes)]
  decodeIn s j := do
    let r ← Record.ofJson?
      ["id", "name", "version", "risk_definitions", "element_type_definitions"] s j
    return {
      id := ← r.required "id"
      name := ← r.required "name"
      version := ← r.required "version"
      riskDefinitions := ← r.withDefault "risk_definitions" []
      elementTypes := ← r.withDefault "element_type_definitions" [] }

def domainFields : List String :=
  ["id", "name", "template_id", "template_version", "risk_definitions",
    "element_type_definitions", "incarnation_configuration", "catalog_items"]

instance : JsonForm Domain where
  encode d := .obj
    [("id", encode d.id), ("name", encode d.name), ("template_id", encode d.templateId),
      ("template_version", encode d.templateVersion),
      ("risk_definitions", encode d.riskDefinitions),
      ("element_type_definitions", encode d.elementTypes),
      ("incarnation_configuration", encode d.configuration),
      ("catalog_items", encode d.catalog)]
  decodeIn s j := do
    let r ← Record.ofJson? domainFields s j
    return {
      id := ← r.required "id"
      name := ← r.required "name"
      templateId := ← r.required "template_id"
      templateVersion := ← r.required "template_version"
      riskDefinitions := ← r.withDefault "risk_definitions" []
      elementTypes := ← r.withDefault "element_type_definitions" []
      configuration := ← r.withDefault "incarnation_configuration" {}
      catalog := ← r.withDefault "catalog_items" [] }

instance : JsonForm Profile where
  encode p := .obj
    [("id", encode p.id), ("name", encode p.name), ("description", encode p.description),
      ("language", encode p.language), ("items", encode p.items)]
  decodeIn s j := do
    let r ← Record.ofJson? ["id", "name", "description", "language", "items"] s j
    return {
      id := ← r.required "id"
      name := ← r.required "name"
      description := ← r.withDefault "description" none
      language := ← r.withDefault "language" none
      items := ← r.withDefault "items" [] }

end TemplateCatalog
