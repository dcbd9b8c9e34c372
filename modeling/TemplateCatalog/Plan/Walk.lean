import TemplateCatalog.Collections.DistinctList
import TemplateCatalog.Plan.Request

/-!
# Walks over a template graph

A walk collects the items to be planned. It starts at the requested items and
follows admitted references within one namespace:

* copies are followed at once, so that an item is planned together with the
  items it is copied with;
* other references are followed breadth first, all of them in closure mode, and
  only those required for integrity in manual mode;
* references of reused items are not followed.

Every item is planned at most once, so that circles in the graph do no harm.
-/

namespace TemplateCatalog

/-- Planned items in the order of discovery, each with whether it counts as requested. -/
abbrev PlannedItems := List (ItemId × Bool)

def PlannedItems.holds (planned : PlannedItems) (id : ItemId) : Bool :=
  planned.any fun p => p.1 == id

def PlannedItems.position? (planned : PlannedItems) (id : ItemId) : Option Nat :=
  planned.findIdx? fun p => p.1 == id

/-- What a walk goes by. -/
structure Walk where
  graph : TemplateGraph
  nspace : ItemNamespace
  options : ResolveOptions
  /-- The items whose references are not followed. -/
  reused : List ItemId := []

namespace Walk

variable (w : Walk)

/-- An item of the walk's namespace. -/
def item? (id : ItemId) : Option TemplateItem := w.graph.getIn? w.nspace id

def admitted (item : TemplateItem) : List TailoringReference :=
  item.references.filter fun r => w.options.filter.admits r.type

/-- The references of an item that are followed. -/
def followed (item : TemplateItem) : List TailoringReference :=
  if w.reused.contains item.id then [] else w.admitted item

/-- The items that an item is copied with. -/
def copies (id : ItemId) : List ItemId :=
  match w.item? id with
  | none => []
  | some item => ((w.followed item).filter fun r => r.type.isCopy).map (·.target)

/-- Whether the mode follows references of a type once an item is planned. -/
def expandsOver (t : ReferenceType) : Bool :=
  match w.options.mode with
  | .closure => true
  | .manual => t.isIntegrityRequired

/-- The items to which a planned item leads. -/
def expansions (id : ItemId) : List ItemId :=
  match w.item? id with
  | none => []
  | some item =>
    ((w.followed item).filter fun r => w.expandsOver r.type).flatMap (·.namedItems)

/-- The items of the namespace that are not planned. -/
def left (planned : PlannedItems) : List TemplateItem :=
  w.graph.items.filter fun item => item.nspace = w.nspace && !planned.holds item.id

/-- The items of a level that exist and are not planned, each once. -/
def newItems (planned : PlannedItems) (level : List ItemId) : List ItemId :=
  distinct (level.filter fun id => (w.item? id).isSome && !planned.holds id)

/-- Plans the new items of a level. -/
def planLevel (requested : Bool) (planned : PlannedItems) (level : List ItemId) : PlannedItems :=
  planned ++ (w.newItems planned level).map (·, requested)

/-- The items that the new items of a level are copied with. -/
def nextLevel (planned : PlannedItems) (level : List ItemId) : List ItemId :=
  (w.newItems planned level).flatMap w.copies

/-- Plans the items of a level, then the level of their copies, until nothing new comes. -/
def planWithCopies (requested : Bool) (planned : PlannedItems) (level : List ItemId) :
    PlannedItems :=
  if (w.left (w.planLevel requested planned level)).length < (w.left planned).length then
    planWithCopies requested (w.planLevel requested planned level) (w.nextLevel planned level)
  else w.planLevel requested planned level
termination_by (w.left planned).length

/-- Plans what the items of a frontier lead to, one after the other. -/
def planExpansions (planned : PlannedItems) (frontier : List ItemId) : PlannedItems :=
  (frontier.flatMap w.expansions).foldl (fun planned id => w.planWithCopies false planned [id])
    planned

/-- The items that were planned behind those that were planned before. -/
def plannedSince (before planned : PlannedItems) : List ItemId :=
  (planned.drop before.length).map (·.1)

/-- Plans what the items of a frontier lead to, then what the new items lead to. -/
def expand (planned : PlannedItems) (frontier : List ItemId) : PlannedItems :=
  if (w.left (w.planExpansions planned frontier)).length < (w.left planned).length then
    expand (w.planExpansions planned frontier)
      (plannedSince planned (w.planExpansions planned frontier))
  else w.planExpansions planned frontier
termination_by (w.left planned).length

/-- The items to be planned for a request. -/
def plannedItems (requested : List ItemId) : PlannedItems :=
  let planned := requested.foldl (fun planned id => w.planWithCopies true planned [id]) []
  w.expand planned (planned.map (·.1))

/-- The items of the namespace to which followed references lead without being planned. -/
def unplannedTargets (planned : PlannedItems) : List ItemId :=
  let named := planned.flatMap fun p =>
    match w.item? p.1 with
    | none => []
    | some item => (w.followed item).flatMap (·.namedItems)
  distinct (named.filter fun id => !planned.holds id && (w.item? id).isSome)

end Walk

end TemplateCatalog
