import TemplateCatalog.Plan.Description

/-!
# Merging both directions of a relation

A relation between two planned items may be declared from either end, or from
both. `mergeBidirectional` keeps the first reference that states a relation, in
the order of the plan, and drops the others.
-/

namespace TemplateCatalog

inductive RelationKind where
  | part
  | member
  | link (linkType : String)
  deriving DecidableEq, Repr

/-- A relation between plan positions, whichever end declares it. -/
structure Relation where
  kind : RelationKind
  /-- The composite, the scope or the source of a link. -/
  holder : Nat
  /-- The part, the member or the target of a link. -/
  held : Nat
  deriving DecidableEq, Repr

/-- The relation that a reference to a planned item states. -/
def ResolvedReference.relation? (origin : Nat) (r : ResolvedReference) : Option Relation :=
  r.target.position?.bind fun target =>
    match r.kind with
    | .part => some ⟨.part, origin, target⟩
    | .composite => some ⟨.part, target, origin⟩
    | .member => some ⟨.member, origin, target⟩
    | .scope => some ⟨.member, target, origin⟩
    | .link linkType _ => some ⟨.link linkType, origin, target⟩
    | .linkExternal linkType _ => some ⟨.link linkType, target, origin⟩
    | _ => none

/-- Keeps what states no relation or one not seen before; also returns all relations seen. -/
def keepFirst (origin : Nat) : (seen : List Relation) → List ResolvedReference →
    List ResolvedReference × List Relation
  | seen, [] => ([], seen)
  | seen, r :: rest =>
    match r.relation? origin with
    | none =>
      let (kept, seen) := keepFirst origin seen rest
      (r :: kept, seen)
    | some relation =>
      if relation ∈ seen then keepFirst origin seen rest
      else
        let (kept, seen) := keepFirst origin (relation :: seen) rest
        (r :: kept, seen)

/-- Merges the descriptions from a position on. -/
def mergeFrom : (origin : Nat) → (seen : List Relation) → List IncarnationDescription →
    List IncarnationDescription
  | _, _, [] => []
  | origin, seen, d :: rest =>
    let (kept, seen) := keepFirst origin seen d.references
    { d with references := kept } :: mergeFrom (origin + 1) seen rest

def mergeBidirectional (ds : List IncarnationDescription) : List IncarnationDescription :=
  mergeFrom 0 [] ds

end TemplateCatalog
