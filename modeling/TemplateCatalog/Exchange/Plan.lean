import TemplateCatalog.Exchange.Model
import TemplateCatalog.Incarnation.Apply
import TemplateCatalog.Plan.Resolve

/-!
# JSON forms of requests and plans

A disposition and an issue are told by a tag beside their fields, a target by a
tag beside its value.
-/

namespace TemplateCatalog

def requestFields : List String :=
  ["unit", "domain", "namespace", "items", "mode", "lookup", "include", "exclude"]

instance : JsonForm IncarnationRequest where
  encode x := .obj
    [("unit", encode x.unit), ("domain", encode x.domain), ("namespace", encode x.nspace),
      ("items", encode x.items), ("mode", encode x.mode), ("lookup", encode x.lookup),
      ("include", encode x.included), ("exclude", encode x.excluded)]
  decodeIn s j := do
    let r ← Record.ofJson? requestFields s j
    return {
      unit := ← r.required "unit"
      domain := ← r.required "domain"
      nspace := ← r.withDefault "namespace" none
      items := ← r.required "items"
      mode := ← r.withDefault "mode" none
      lookup := ← r.withDefault "lookup" none
      included := ← r.withDefault "include" none
      excluded := ← r.withDefault "exclude" none }

instance : JsonForm Disposition where
  encode
    | .create element isGuarded =>
      .obj [("action", .str "CREATE"), ("element", encode element), ("guarded", encode isGuarded)]
    | .reuse element => .obj [("action", .str "REUSE"), ("element", encode element)]
  decodeIn s j := do
    let (name, fields) ← j.variant? "action" ["CREATE", "REUSE"] s
    match name with
    | "CREATE" =>
      let r ← Record.ofJson? ["element", "guarded"] .union fields
      return .create (← r.required "element") (← r.required "guarded")
    | "REUSE" =>
      let r ← Record.ofJson? ["element"] .union fields
      return .reuse (← r.required "element")
    | _ => none

instance : JsonForm ReferenceTarget where
  encode
    | .planned position => .obj [("kind", .str "PLANNED"), ("value", encode position)]
    | .existing element => .obj [("kind", .str "EXISTING"), ("value", encode element)]
    | .unresolved item => .obj [("kind", .str "UNRESOLVED"), ("value", encode item)]
  decodeIn s j := do
    let r ← Record.ofJson? ["kind", "value"] s j
    match ← r.variant? "kind" with
    | "PLANNED" => return .planned (← r.required "value")
    | "EXISTING" => return .existing (← r.required "value")
    | "UNRESOLVED" => return .unresolved (← r.required "value")
    | _ => none

instance : JsonForm AuxiliaryTarget where
  encode a := .obj
    [("role", encode a.role), ("item", encode a.item), ("target", encode a.target)]
  decodeIn s j := do
    let r ← Record.ofJson? ["role", "item", "target"] s j
    return {
      role := ← r.required "role"
      item := ← r.required "item"
      target := ← r.required "target" }

instance : JsonForm ResolvedReference where
  encode x := .obj
    [("reference", encode x.reference), ("target_item", encode x.targetItem),
      ("kind", encode x.kind), ("target", encode x.target), ("auxiliary", encode x.auxiliary)]
  decodeIn s j := do
    let r ← Record.ofJson? ["reference", "target_item", "kind", "target", "auxiliary"] s j
    return {
      reference := ← r.required "reference"
      targetItem := ← r.required "target_item"
      kind := ← r.required "kind"
      target := ← r.required "target"
      auxiliary := ← r.withDefault "auxiliary" [] }

instance : JsonForm IncarnationDescription where
  encode d := .obj
    [("item", encode d.item), ("requested", encode d.requested),
      ("disposition", encode d.disposition), ("references", encode d.references)]
  decodeIn s j := do
    let r ← Record.ofJson? ["item", "requested", "disposition", "references"] s j
    return {
      item := ← r.required "item"
      requested := ← r.required "requested"
      disposition := ← r.required "disposition"
      references := ← r.withDefault "references" [] }

instance : JsonForm IntegrityIssue where
  encode
    | .danglingReference origin reference target =>
      .obj [("issue", .str "DANGLING_REFERENCE"), ("origin", encode origin),
        ("reference", encode reference), ("target", encode target)]
    | .crossNamespace origin reference target nspace =>
      .obj [("issue", .str "CROSS_NAMESPACE"), ("origin", encode origin),
        ("reference", encode reference), ("target", encode target),
        ("namespace", encode nspace)]
  decodeIn s j := do
    let (name, fields) ← j.variant? "issue" ["DANGLING_REFERENCE", "CROSS_NAMESPACE"] s
    match name with
    | "DANGLING_REFERENCE" =>
      let r ← Record.ofJson? ["origin", "reference", "target"] .union fields
      return .danglingReference (← r.required "origin") (← r.required "reference")
        (← r.required "target")
    | "CROSS_NAMESPACE" =>
      let r ← Record.ofJson? ["origin", "reference", "target", "namespace"] .union fields
      return .crossNamespace (← r.required "origin") (← r.required "reference")
        (← r.required "target") (← r.required "namespace")
    | _ => none

def planFields : List String :=
  ["unit", "domain", "lookup", "descriptions", "creation_order", "issues"]

instance : JsonForm IncarnationPlan where
  encode p := .obj
    [("unit", encode p.unit), ("domain", encode p.domain), ("lookup", encode p.lookup),
      ("descriptions", encode p.descriptions), ("creation_order", encode p.creationOrder),
      ("issues", encode p.issues)]
  decodeIn s j := do
    let r ← Record.ofJson? planFields s j
    return {
      unit := ← r.required "unit"
      domain := ← r.required "domain"
      lookup := ← r.required "lookup"
      descriptions := ← r.required "descriptions"
      creationOrder := ← r.required "creation_order"
      issues := ← r.withDefault "issues" [] }

instance : JsonForm AppliedIncarnation where
  encode a := .obj
    [("elements", encode a.elements), ("created", encode a.created),
      ("modified", encode a.modified)]
  decodeIn s j := do
    let r ← Record.ofJson? ["elements", "created", "modified"] s j
    return {
      elements := ← r.required "elements"
      created := ← r.required "created"
      modified := ← r.required "modified" }

end TemplateCatalog
