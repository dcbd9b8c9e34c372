import TemplateCatalog.Collections.DistinctList
import TemplateCatalog.Plan.Description

/-!
# Creation order

Elements are created in an order in which targets come before the descriptions
that refer to them. Positions whose targets are all placed wait in a queue, and
the least of them is placed next. When the queue is empty, only circles are left;
then the least position is placed that lies in a circle into which nothing else
that is left leads.

The targets of a position are not searched anew at every step. They are counted
at the start, every placing counts down, and a position that gets to zero joins
the queue (`Placing`).

Positions outside the plan and references of a description to itself do not
count as dependencies.

An order from elsewhere is checked by ranking the positions as it lists them and
comparing ranks along the dependencies between different circles.
-/

namespace TemplateCatalog

/-- How far positions are placed. -/
structure Placing where
  placed : List Nat := []
  /-- For every position how many of those it depends on are not placed. -/
  missing : List Nat
  /-- The positions that miss none, the least first; some of them may be placed. -/
  ready : List Nat
  deriving DecidableEq, Repr

/-- Adds a position to a sorted queue. -/
def enqueue (n : Nat) : List Nat → List Nat
  | [] => [n]
  | m :: rest => if n ≤ m then n :: m :: rest else m :: enqueue n rest

/-- The position misses one less, and is ready if that leaves none. -/
def Placing.release (p : Placing) (n : Nat) : Placing :=
  let missing := p.missing.modify n (· - 1)
  { p with
    missing
    ready :=
      if missing[n]? = some 0 && !p.placed.contains n then enqueue n p.ready else p.ready }

/-- For every position the positions it depends on. -/
structure Dependencies where
  targets : List (List Nat)
  deriving DecidableEq, Repr

namespace Dependencies

/-- The planned targets of every description, without itself and within the plan. -/
def ofDescriptions (ds : List IncarnationDescription) : Dependencies where
  targets := ds.zipIdx.map fun (d, origin) =>
    d.plannedTargets.filter fun t => t ≠ origin && t < ds.length

variable (g : Dependencies)

def size : Nat := g.targets.length

def positions : List Nat := List.range g.size

def targetsOf (origin : Nat) : List Nat := (g.targets[origin]?).getD []

/-- Adds to what was seen all that lies at most `rounds` steps behind the frontier. -/
def reach : (rounds : Nat) → (seen frontier : List Nat) → List Nat
  | 0, seen, _ => seen
  | rounds + 1, seen, frontier =>
    let next := distinct ((frontier.flatMap g.targetsOf).filter fun n => !seen.contains n)
    if next.isEmpty then seen else reach rounds (seen ++ next) next

/-- The positions that a position leads to in one step or more. -/
def reachable (origin : Nat) : List Nat := g.reach g.size [] [origin]

/-- For every position the positions on a common circle with it, itself included. -/
def circles : List (List Nat) :=
  let reached := g.positions.map g.reachable
  let leads (a b : Nat) : Bool := ((reached[a]?).getD []).contains b
  g.positions.map fun a => g.positions.filter fun b => a == b || (leads a b && leads b a)

/-- What is left of a circle depends on nothing else that is left. -/
def isUnfed (placed circle : List Nat) : Bool :=
  (circle.filter fun m => !placed.contains m).all fun m =>
    (g.targetsOf m).all fun t => placed.contains t || circle.contains t

/-! ## Placing -/

/-- The different positions that a position depends on. -/
def inDegree (n : Nat) : Nat := (distinct (g.targetsOf n)).length

/-- The positions that depend on a position. -/
def dependents (n : Nat) : List Nat :=
  g.positions.filter fun origin => (g.targetsOf origin).contains n

def start : Placing where
  missing := g.positions.map g.inDegree
  ready := g.positions.filter fun n => g.inDegree n == 0

/-- Places a position, so that those that depend on it miss one less. -/
def put (p : Placing) (n : Nat) : Placing :=
  (g.dependents n).foldl Placing.release { p with placed := p.placed ++ [n] }

/-- The position at which to break a circle. -/
def entry? (circles : List (List Nat)) (placed : List Nat) : Option Nat :=
  g.positions.find? fun n => !placed.contains n && g.isUnfed placed ((circles[n]?).getD [])

/-- Places the least position that is ready, or else breaks a circle. -/
def step? (circles : List (List Nat)) (p : Placing) : Option Placing :=
  match p.ready.dropWhile p.placed.contains with
  | n :: ready => some (g.put { p with ready } n)
  | [] => (g.entry? circles p.placed).map (g.put { p with ready := [] })

/-- Places up to `count` positions behind those that are placed. -/
def place (circles : List (List Nat)) : (count : Nat) → Placing → List Nat
  | 0, p => p.placed
  | count + 1, p =>
    match g.step? circles p with
    | some p' => place circles count p'
    | none => p.placed

def order : List Nat := g.place g.circles g.size g.start

/-! ## Checking an order -/

/-- Ranks positions as they are listed, from a rank on. This fails at a position that is not in the
plan or has a rank already. -/
def rank? (ranks : List (Option Nat)) (next : Nat) : List Nat → Option (List (Option Nat))
  | [] => some ranks
  | n :: rest =>
    match ranks[n]? with
    | some none => rank? (ranks.set n (some next)) (next + 1) rest
    | _ => none

/-- The rank of a position; one without a rank comes behind all others. -/
def rankOf (ranks : List (Option Nat)) (n : Nat) : Nat := ((ranks[n]?).join).getD ranks.length

/-- For every position the first one of its circle, which stands for the circle. -/
def components : List Nat := g.circles.map (·.headD 0)

/-- Whether an order holds every position once, and targets before their origins unless both
lie on a common circle. -/
def isRespectedBy (order : List Nat) : Bool :=
  order.length == g.size &&
    match rank? (List.replicate g.size none) 0 order with
    | none => false
    | some ranks =>
      let components := g.components
      g.positions.all fun origin => (g.targetsOf origin).all fun t =>
        components[t]? == components[origin]? || rankOf ranks t < rankOf ranks origin

end Dependencies

/-- The order in which the elements of descriptions are created. -/
def creationOrder (ds : List IncarnationDescription) : List Nat :=
  (Dependencies.ofDescriptions ds).order

/-- Whether an order holds every position once and creates targets before their origins. -/
def respectsDependencies (ds : List IncarnationDescription) (order : List Nat) : Bool :=
  (Dependencies.ofDescriptions ds).isRespectedBy order

end TemplateCatalog
