import TemplateCatalog.Proofs.Incarnation.InPlace
import TemplateCatalog.Proofs.Plan.Visibility

/-!
# References that a filter hides

A reference of a type that the filter of a resolution does not admit is invisible,
whatever it leads to and whatever it holds. The resolution does not see it, and an
application reads the references of the plan and none of the graph.

Results:
1. `Application.computeBatch_alike`: an application works out the same batch from
   graphs that hold the same items up to hidden references.
2. `hidden_references_ignored`: so a request is resolved to the same over such
   graphs, and the plan is applied to the same effect.
-/

namespace TemplateCatalog

namespace Application

variable {f : ReferenceFilter} {graph graph' : TemplateGraph} {c : Connection} {domain : Domain}
  {plan : IncarnationPlan}

/-- New elements are made from what is visible of their items. -/
theorem createAll_alike (alike : graph.AlikeUnder f graph') (ws : Workspace)
    (guards : List IncarnationGuard) (ds : List IncarnationDescription) :
    createAll ⟨c, graph', domain, plan⟩ ws guards ds =
      createAll ⟨c, graph, domain, plan⟩ ws guards ds := by
  induction ds generalizing ws guards with
  | nil => rfl
  | cons d rest ih =>
    unfold createAll
    cases d.disposition with
    | reuse id => exact ih ws guards
    | create id isGuarded =>
      rcases alike.get?_cases d.item with
        ⟨missing, missing'⟩ | ⟨item, item', found, found', visible⟩
      · simp only [missing, missing']
      · have instantiated : domain.instantiate item' id plan.unit =
            domain.instantiate item id plan.unit :=
          ReferenceFilter.eq_of_visible (fun item => domain.instantiate item id plan.unit)
            (fun _ => rfl) visible
        have guard : plan.guardFor? item' = plan.guardFor? item :=
          ReferenceFilter.eq_of_visible plan.guardFor? (fun _ => rfl) visible
        simp only [found, found', instantiated, guard, ih]

/-- Wiring does not look at the graph. -/
theorem wireAll_alike (ws : Workspace) (ds : List IncarnationDescription) :
    wireAll ⟨c, graph', domain, plan⟩ ws ds = wireAll ⟨c, graph, domain, plan⟩ ws ds := by
  induction ds generalizing ws with
  | nil => rfl
  | cons d rest ih =>
    unfold wireAll
    simp only [ih]

theorem computeBatch_alike (alike : graph.AlikeUnder f graph') :
    computeBatch ⟨c, graph', domain, plan⟩ = computeBatch ⟨c, graph, domain, plan⟩ := by
  have checked : check ⟨c, graph', domain, plan⟩ = check ⟨c, graph, domain, plan⟩ := rfl
  have wired : wireAll ⟨c, graph', domain, plan⟩ = wireAll ⟨c, graph, domain, plan⟩ :=
    funext fun ws => funext (wireAll_alike ws)
  unfold computeBatch
  simp only [checked, createAll_alike alike, wired]

end Application

/-- Graphs that hold the same items, up to references of types that the filter does not admit, give
the same plan or the same error, and the application of any plan gives the same answer and leaves
the same store. -/
theorem hidden_references_ignored (graph graph' : TemplateGraph) (options : ResolveOptions)
    (alike : graph.AlikeUnder options.filter graph') (c : Connection) (fresh : Nat → ElementId)
    (request : IncarnationRequest) :
    resolve graph' c fresh request options = resolve graph c fresh request options ∧
      ∀ (s : Store) (domain : Domain) (plan : IncarnationPlan),
        s.applyInPlace graph' domain plan = s.applyInPlace graph domain plan := by
  refine ⟨resolve_onGraph alike c fresh request, fun s domain plan => ?_⟩
  unfold Store.applyInPlace
  simp only [Application.computeBatch_alike alike]
  -- what is reported is read off the plan and the batch
  rfl

/-- The links of two assets are hidden. One graph has them in a circle and has a dangling one; in
the other graph they are gone and the items stand in another order. Without the filter the graphs
give different plans. -/
theorem hidden_references_ignored_of_links :
    let domain : Domain := .ofTemplate ⟨⟨1⟩⟩ { id := ⟨⟨0⟩⟩, name := "template", version := {} }
    let item (n : Nat) (references : List TailoringReference) : TemplateItem :=
      { id := ⟨⟨n⟩⟩, nspace := domain.nspace, name := "item", elementType := .asset, references }
    let link (n t : Nat) : TailoringReference := ⟨⟨⟨n⟩⟩, ⟨⟨t⟩⟩, .plainLink "uses"⟩
    let part : TailoringReference := ⟨⟨⟨20⟩⟩, ⟨⟨11⟩⟩, .part⟩
    let graph : TemplateGraph :=
      ⟨[item 10 [link 21 12, part, link 22 13], item 11 [], item 12 [link 23 10]], by decide⟩
    let graph' : TemplateGraph := ⟨[item 12 [], item 11 [link 24 11], item 10 [part]], by decide⟩
    let s : Store := { units := .ofList [⟨⟨⟨2⟩⟩, "unit", [domain.id]⟩] }
    let request : IncarnationRequest := { unit := ⟨⟨2⟩⟩, domain := domain.id, items := [⟨⟨10⟩⟩] }
    let options : ResolveOptions := { filter := .ofSets none (some (.ofList [.link])) }
    let fresh (n : Nat) : ElementId := ⟨⟨n + 50⟩⟩
    graph.AlikeUnder options.filter graph' ∧
      resolve graph' s.connect fresh request {} ≠ resolve graph s.connect fresh request {} ∧
      (resolve graph s.connect fresh request options).toOption.map
        (·.descriptions.map (·.item)) = some [⟨⟨10⟩⟩, ⟨⟨11⟩⟩] ∧
      resolve graph' s.connect fresh request options =
        resolve graph s.connect fresh request options ∧
      ∀ (plan : IncarnationPlan),
        s.applyInPlace graph' domain plan = s.applyInPlace graph domain plan := by
  intro domain item link part graph graph' s request options fresh
  have alike : graph.AlikeUnder options.filter graph' :=
    TemplateGraph.AlikeUnder.iff_perm.mpr (by decide)
  obtain ⟨resolved, applied⟩ :=
    hidden_references_ignored graph graph' options alike s.connect fresh request
  exact ⟨alike, by decide +kernel, by decide +kernel, resolved, applied s domain⟩

end TemplateCatalog
