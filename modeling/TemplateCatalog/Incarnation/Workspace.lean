import TemplateCatalog.Incarnation.Error
import TemplateCatalog.Repository.Connection

/-!
# Workspaces

The elements that one application of a plan touches. New elements and changed
copies of stored elements are kept apart from the store until they are written
as one batch. A stored element joins the workspace when it is changed first,
and only if it belongs to the workspace's unit.
-/

namespace TemplateCatalog

structure Workspace where
  connection : Connection
  unit : UnitId
  /-- New elements in the order of their creation. -/
  created : List Element := []
  /-- Changed elements in the order of their first change. -/
  modified : List Element := []

namespace Workspace

/-- An element of some elements by its identifier. -/
def find? (es : List Element) (id : ElementId) : Option Element := es.find? fun e => e.id = id

/-- Changes the element with an identifier. -/
def updateIn (es : List Element) (id : ElementId) (f : Element → Element) : List Element :=
  es.map fun e => if e.id = id then f e else e

variable (ws : Workspace)

/-- A stored element of the workspace's unit. -/
def load (id : ElementId) : Except ApplyError Element :=
  match ws.connection.findElement id with
  | .error e => .error (.repository e)
  | .ok none => .error (.elementNotFound id)
  | .ok (some e) => if e.owner = ws.unit then .ok e else .error (.foreignElement id ws.unit)

/-- An element as it is in the workspace, else as it is stored. -/
def element (id : ElementId) : Except ApplyError Element :=
  match (find? ws.created id).or (find? ws.modified id) with
  | some e => .ok e
  | none => ws.load id

/-- Changes an element; a stored one joins the workspace. -/
def update (id : ElementId) (f : Element → Element) : Except ApplyError Workspace :=
  if (find? ws.created id).isSome then .ok { ws with created := updateIn ws.created id f }
  else if (find? ws.modified id).isSome then .ok { ws with modified := updateIn ws.modified id f }
  else (ws.load id).map fun e => { ws with modified := ws.modified ++ [f e] }

def create (e : Element) : Workspace := { ws with created := ws.created ++ [e] }

/-! ## Checks -/

def requireType (id : ElementId) (expected : ElementType) (role : String) :
    Except ApplyError Unit := do
  let e ← ws.element id
  if e.elementType = expected then .ok ()
  else .error (.modelConsistency (.wrongType role expected id e.elementType))

def requireTypeIf (id : Option ElementId) (expected : ElementType) (role : String) :
    Except ApplyError Unit :=
  match id with
  | some id => ws.requireType id expected role
  | none => .ok ()

def requireRiskAffected (id : ElementId) : Except ApplyError Unit := do
  let e ← ws.element id
  if e.elementType.isRiskAffected then .ok ()
  else .error (.modelConsistency (.notRiskAffected e.elementType id))

/-! ## Relations -/

/-- A composite and its part are of one type, which is not that of scopes. -/
def addPart (composite part : ElementId) : Except ApplyError Workspace := do
  let c ← ws.element composite
  let p ← ws.element part
  if c.elementType.isComposite && c.elementType = p.elementType then
    ws.update composite (·.addPart part)
  else
    .error (.modelConsistency (.notAPart p.elementType part c.elementType composite))

/-- Only scopes have members. -/
def addMember (scope member : ElementId) : Except ApplyError Workspace := do
  ws.requireType scope .scope "scope"
  let _ ← ws.element member
  ws.update scope (·.addMember member)

end Workspace

end TemplateCatalog
