import TemplateCatalog.Plan.CreationOrder
import TemplateCatalog.Plan.Merge
import TemplateCatalog.Plan.Walk
import TemplateCatalog.Repository.Connection

/-!
# Resolving a request

A request is resolved to a plan in three steps:

1. Walk over the graph, look up incarnations of what the walk found, and walk
   again without the references of reused items, until no further item is
   reused. Under `always` one walk is enough, since reused items are followed.
2. Describe every planned item: create an element or reuse one, and resolve its
   references. Broken references become issues.
3. Merge relations that are declared from both ends if the options say so, and
   compute the creation order.
-/

namespace TemplateCatalog

inductive ResolveError where
  | emptyRequest
  | itemNotFound (item : ItemId)
  | repository (error : RepositoryError)
  deriving DecidableEq, Repr

def ResolveError.message : ResolveError → String
  | .emptyRequest => "incarnation request contains no items"
  | .itemNotFound item => s!"catalog item not found: {item}"
  | .repository error => s!"repository error: {error.message}"

/-! ## Incarnations that exist -/

/-- The catalog items that were asked for, and the elements made from them. -/
structure Incarnations where
  queried : List ItemId := []
  found : List Element := []

/-- The first element that the policy accepts for an item. -/
def existingIncarnation? (found : List Element) (lookup : LookupPolicy) (item : TemplateItem) :
    Option ElementId := do
  let applied ← item.applied?
  let element ← found.find? fun e =>
    e.appliedItem.any fun a =>
      a.item == applied && (lookup ≠ .sameVersion || a.version == item.version)
  return element.id

/-- The catalog items to be asked for after a walk. -/
def Walk.candidates (w : Walk) (planned : PlannedItems) (known : Incarnations) : List ItemId :=
  let ids := planned.map (·.1) ++ w.unplannedTargets planned
  let applied := ids.filterMap fun id => (w.graph.get? id).bind (·.applied?)
  distinct (applied.filter fun id => !known.queried.contains id)

/-- Asks for what was not asked for before. -/
def Walk.lookUp (w : Walk) (c : Connection) (request : IncarnationRequest)
    (planned : PlannedItems) (known : Incarnations) : Except RepositoryError Incarnations :=
  if w.options.lookup = .never then .ok known
  else
    let candidates := w.candidates planned known
    if candidates.isEmpty then .ok known
    else do
      let found ← c.findIncarnations request.unit request.domain candidates
      return ⟨known.queried ++ candidates, known.found ++ found⟩

/-- The planned items that will be reused and whose references were followed so far. -/
def Walk.newlyReused (w : Walk) (planned : PlannedItems) (known : Incarnations) : List ItemId :=
  (planned.filter fun (id, requested) =>
    !w.reused.contains id && w.options.lookup.appliesTo requested &&
      ((w.item? id).bind (existingIncarnation? known.found w.options.lookup)).isSome).map (·.1)

/-! ## The stable walk -/

/-- A walk with what it found. -/
structure Survey where
  walk : Walk
  planned : PlannedItems
  found : List Element

/-- The items of the graph whose references are followed. -/
def Walk.unreused (w : Walk) : List TemplateItem :=
  w.graph.items.filter fun item => !w.reused.contains item.id

/-- Walks until no further item is reused. -/
def Walk.survey (w : Walk) (c : Connection) (request : IncarnationRequest)
    (known : Incarnations) : Except RepositoryError Survey :=
  let planned := w.plannedItems request.items
  match w.lookUp c request planned known with
  | .error e => .error e
  | .ok known =>
    if w.options.lookup = .always then .ok ⟨w, planned, known.found⟩
    else
      let w' := { w with reused := w.reused ++ w.newlyReused planned known }
      if w'.unreused.length < w.unreused.length then survey w' c request known
      else .ok ⟨w, planned, known.found⟩
termination_by w.unreused.length

namespace Survey

variable (s : Survey)

def existing? (item : TemplateItem) : Option ElementId :=
  existingIncarnation? s.found s.walk.options.lookup item

/-- What becomes of an item; a new element gets the identifier `fresh`. -/
def disposition (item : TemplateItem) (requested : Bool) (fresh : ElementId) : Disposition :=
  if s.walk.options.lookup.appliesTo requested then
    match s.existing? item with
    | some element => .reuse element
    | none => .create fresh item.applied?.isSome
  else .create fresh false

/-! ## References -/

/-- Where a reference leads that names the target item, or why it is broken. -/
def target (origin : ItemId) (reference : ReferenceId) (target : ItemId) :
    Except IntegrityIssue ReferenceTarget :=
  match s.walk.graph.get? target with
  | none => .error (.danglingReference origin reference target)
  | some item =>
    if item.nspace ≠ s.walk.nspace then
      .error (.crossNamespace origin reference target item.nspace)
    else
      match s.planned.position? target with
      | some position => .ok (.planned position)
      | none =>
        if s.walk.options.lookup.appliesTo false then
          .ok ((s.existing? item).elim (.unresolved target) .existing)
        else .ok (.unresolved target)

/-- The auxiliary targets of a reference that are not broken. -/
def auxiliaryTargets (origin : ItemId) (r : TailoringReference) : List AuxiliaryTarget :=
  r.kind.auxiliaryItems.filterMap fun (role, item) =>
    (s.target origin r.id item).toOption.map fun target => { role, item, target }

/-- Nothing if the main target is broken. -/
def resolve? (origin : ItemId) (r : TailoringReference) : Option ResolvedReference :=
  (s.target origin r.id r.target).toOption.map fun target =>
    { reference := r.id, targetItem := r.target, kind := r.kind, target
      auxiliary := s.auxiliaryTargets origin r }

def issue? (origin : ItemId) (r : TailoringReference) (item : ItemId) : Option IntegrityIssue :=
  match s.target origin r.id item with
  | .error issue => some issue
  | .ok _ => none

/-- The issues of a reference; auxiliary items are examined only if the main target is fine. -/
def issuesOf (origin : ItemId) (r : TailoringReference) : List IntegrityIssue :=
  match s.issue? origin r r.target with
  | some issue => [issue]
  | none => r.kind.auxiliaryItems.filterMap fun a => s.issue? origin r a.2

/-! ## Descriptions -/

def describe (item : TemplateItem) (requested : Bool) (fresh : ElementId) :
    IncarnationDescription where
  item := item.id
  requested
  disposition := s.disposition item requested fresh
  references := (s.walk.followed item).filterMap (s.resolve? item.id)

/-- Describes planned items; the `n`-th creation gets the identifier `fresh n`. -/
def describeFrom (fresh : Nat → ElementId) : (n : Nat) → PlannedItems →
    List IncarnationDescription
  | _, [] => []
  | n, (id, requested) :: rest =>
    match s.walk.item? id with
    | none => describeFrom fresh n rest
    | some item =>
      let d := s.describe item requested (fresh n)
      d :: describeFrom fresh (if d.disposition.isCreate then n + 1 else n) rest

def descriptions (fresh : Nat → ElementId) : List IncarnationDescription :=
  s.describeFrom fresh 0 s.planned

def issues : List IntegrityIssue :=
  s.planned.flatMap fun p =>
    match s.walk.item? p.1 with
    | none => []
    | some item => (s.walk.followed item).flatMap (s.issuesOf item.id)

end Survey

/-! ## Plans -/

/-- The first requested item that the namespace lacks. -/
def missingItem? (graph : TemplateGraph) (request : IncarnationRequest) : Option ItemId :=
  request.items.find? fun id => (graph.getIn? request.source id).isNone

/-- Resolves a request; the `n`-th creation, counted from zero, gets the identifier `fresh n`. -/
def resolve (graph : TemplateGraph) (c : Connection) (fresh : Nat → ElementId)
    (request : IncarnationRequest) (options : ResolveOptions) :
    Except ResolveError IncarnationPlan :=
  if request.items.isEmpty then .error .emptyRequest
  else
    match missingItem? graph request with
    | some item => .error (.itemNotFound item)
    | none =>
      match Walk.survey ⟨graph, request.source, options, []⟩ c request {} with
      | .error e => .error (.repository e)
      | .ok survey =>
        let described := survey.descriptions fresh
        let descriptions :=
          if options.mergeBidirectional then mergeBidirectional described else described
        .ok {
          unit := request.unit
          domain := request.domain
          lookup := options.lookup
          descriptions
          creationOrder := creationOrder descriptions
          issues := survey.issues }

end TemplateCatalog
