import TemplateCatalog.Incarnation.Workspace
import TemplateCatalog.Plan.Description

/-!
# Wiring

What a reference of a new element means for the elements at its ends:

| reference | effect |
|---|---|
| copy, copy always | none |
| link, link external | a link from the origin to the target, or back |
| part, composite | the target is a part of the origin, or the reverse |
| member, scope | the target is a member of the origin, or the reverse |
| risk | the origin's risk for the target, with owner, mitigation and values |
| control, requirement implementation | an implementation of the target on the origin |

The target must be known even where nothing is done with it.
-/

namespace TemplateCatalog

/-- The element that a target of a description stands for. -/
def IncarnationPlan.targetElement (plan : IncarnationPlan) (d : IncarnationDescription) :
    ReferenceTarget → Except ApplyError ElementId
  | .planned position =>
    match plan.descriptions[position]? with
    | some target => .ok target.disposition.element
    | none => .error (.invalidPlan (.noPosition position))
  | .existing element => .ok element
  | .unresolved item => .error (.missingTarget item d.item)

/-- The element of the first auxiliary target in a role. -/
def IncarnationPlan.auxiliaryElement (plan : IncarnationPlan) (d : IncarnationDescription)
    (r : ResolvedReference) (role : AuxiliaryRole) : Except ApplyError (Option ElementId) :=
  match r.auxiliary? role with
  | some a => (plan.targetElement d a.target).map some
  | none => .ok none

/-- What a risk value fails to point at in a domain. -/
def Domain.riskValueFault? (domain : Domain) (v : RiskValueRef) : Option RiskValueFault :=
  match domain.riskDefinition? v.riskDefinition with
  | none => some .unknownDefinition
  | some definition =>
    match definition.categories[v.category]? with
    | none => some (.noCategory v.category)
    | some category => if (category.cell? v.cell).isSome then none else some (.noCell v.cell)

/-- Checks risk values in turn. -/
def Domain.checkRiskValues (domain : Domain) (item : ItemId) :
    List RiskValueRef → Except ApplyError Unit
  | [] => .ok ()
  | v :: rest =>
    match domain.riskValueFault? v with
    | some fault => .error (.invalidRiskValue item v.riskDefinition fault)
    | none => domain.checkRiskValues item rest

/-- What wiring goes by: the domain, the plan, and a description of it. -/
structure Wiring where
  domain : Domain
  plan : IncarnationPlan
  description : IncarnationDescription

namespace Wiring

variable (x : Wiring)

/-- The new element whose references are wired. -/
def origin : ElementId := x.description.disposition.element

def auxiliary (r : ResolvedReference) (role : AuxiliaryRole) :
    Except ApplyError (Option ElementId) :=
  x.plan.auxiliaryElement x.description r role

/-- Owner and mitigation that a reference names replace those of the risk; values are added. -/
def risk (ws : Workspace) (r : ResolvedReference) (scenario : ElementId)
    (values : List RiskValueRef) : Except ApplyError Workspace := do
  ws.requireRiskAffected x.origin
  ws.requireType scenario .scenario "risk scenario"
  let owner ← x.auxiliary r .riskOwner
  ws.requireTypeIf owner .person "risk owner"
  let mitigation ← x.auxiliary r .mitigation
  ws.requireTypeIf mitigation .control "mitigation"
  x.domain.checkRiskValues x.description.item values
  ws.update x.origin fun e => e.updateRisk scenario x.domain.id fun risk =>
    ({ risk with
      owner := owner.or risk.owner
      mitigation := mitigation.or risk.mitigation }).addValues values

/-- The responsible person of an implementation after the checks of its ends. -/
def implementation (ws : Workspace) (r : ResolvedReference) (control : ElementId)
    (role : String) : Except ApplyError (Option ElementId) := do
  ws.requireRiskAffected x.origin
  ws.requireType control .control role
  let responsible ← x.auxiliary r .responsible
  ws.requireTypeIf responsible .person "responsible"
  return responsible

/-- Realizes one reference. -/
def wire (ws : Workspace) (r : ResolvedReference) : Except ApplyError Workspace := do
  let target ← x.plan.targetElement x.description r.target
  match r.kind with
  | .copy | .copyAlways => return ws
  | .link linkType attributes =>
    let _ ← ws.element target
    ws.update x.origin (·.addLink { linkType, target, domain := x.domain.id, attributes })
  | .linkExternal linkType attributes =>
    ws.update target
      (·.addLink { linkType, target := x.origin, domain := x.domain.id, attributes })
  | .part => ws.addPart x.origin target
  | .composite => ws.addPart target x.origin
  | .scope => ws.addMember target x.origin
  | .member => ws.addMember x.origin target
  | .risk _ _ values => x.risk ws r target values
  | .controlImplementation _ description =>
    let responsible ← x.implementation ws r target "implemented control"
    ws.update x.origin
      (·.addControlImplementation { control := target, responsible, description })
  | .requirementImplementation status statement _ =>
    let responsible ← x.implementation ws r target "required control"
    ws.update x.origin
      (·.addRequirementImplementation { control := target, status, statement, responsible })

end Wiring

end TemplateCatalog
