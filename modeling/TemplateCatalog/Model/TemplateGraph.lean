import TemplateCatalog.Model.TemplateItem

/-!
# Template graphs

The items of a catalog or a profile as nodes of a graph whose edges are their
references. Edges may lead in circles and outside the graph. No two items share
an identifier.
-/

namespace TemplateCatalog

structure TemplateGraph where
  items : List TemplateItem
  distinct_ids : (items.map (·.id)).Nodup

namespace TemplateGraph

/-- The first identifier that stands in a list a second time. -/
def firstRepeated : (seen : List ItemId) → List ItemId → Option ItemId
  | _, [] => none
  | seen, id :: rest => if id ∈ seen then some id else firstRepeated (id :: seen) rest

theorem nodup_of_firstRepeated_eq_none {seen ids : List ItemId}
    (h : firstRepeated seen ids = none) : ids.Nodup ∧ ∀ id ∈ ids, id ∉ seen := by
  induction ids generalizing seen with
  | nil => simp
  | cons id rest ih =>
    simp only [firstRepeated] at h
    split at h
    · simp at h
    · next hid =>
      obtain ⟨hnodup, hrest⟩ := ih h
      refine ⟨List.nodup_cons.mpr ⟨fun hmem => hrest id hmem List.mem_cons_self, hnodup⟩, ?_⟩
      intro x hx
      rcases List.mem_cons.mp hx with rfl | hx
      · exact hid
      · exact fun hs => hrest x hx (List.mem_cons_of_mem _ hs)

/-- The graph of some items; two items of one identifier are an error. -/
def ofItems (items : List TemplateItem) : Except ModelError TemplateGraph :=
  match h : firstRepeated [] (items.map (·.id)) with
  | none => .ok ⟨items, (nodup_of_firstRepeated_eq_none h).1⟩
  | some id => .error (.duplicateItem id)

def get? (g : TemplateGraph) (id : ItemId) : Option TemplateItem :=
  g.items.find? fun item => item.id == id

def position? (g : TemplateGraph) (id : ItemId) : Option Nat :=
  g.items.findIdx? fun item => item.id == id

def contains (g : TemplateGraph) (id : ItemId) : Bool := (g.get? id).isSome

/-- The item with an identifier, if it lives in the namespace. -/
def getIn? (g : TemplateGraph) (nspace : ItemNamespace) (id : ItemId) : Option TemplateItem :=
  (g.get? id).filter fun item => item.nspace = nspace

/-- The number of references whose target is not in the graph. -/
def danglingCount (g : TemplateGraph) : Nat :=
  (g.items.flatMap (·.references)).countP fun r => !g.contains r.target

end TemplateGraph

end TemplateCatalog
