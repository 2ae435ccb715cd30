import Phrasebook.Catalog

namespace Phrasebook.Catalog

variable {c : Catalog} {given : Locale.Given} {l : Locale} {ns key : String}

theorem tree?_modify (c : Catalog) (tag ns : String) (f : Members Value → Members Value)
    (tag' ns' : String) :
    (c.modify tag ns f).tree? tag' ns' =
      if tag = tag' ∧ ns = ns' then some (f ((c.tree? tag ns).getD [])) else c.tree? tag' ns' := by
  by_cases ht : tag = tag'
  case neg => simp [modify, tree?, Members.get?_put, ht]
  case pos =>
    subst ht
    by_cases hn : ns = ns' <;> cases hd : c.data.get? tag <;>
      simp [modify, tree?, Members.get?_put, Members.get?, hd, hn]

theorem add_of_read (h : given.read = .ok l) (v : Value) :
    c.add given ns key v = .ok (c.modify l.tag ns (·.put key v)) := by
  simp only [add, h]
  rfl

theorem addBundle_of_read (h : given.read = .ok l) (ns : String) (source : Members Value) :
    c.addBundle given ns source =
      ⟨[.bundleAdded l.tag ns source.length], .done (c.modify l.tag ns (mergeTree · source))⟩ := by
  rw [addBundle, h]
  rfl

theorem walk?_put (tree : Members Value) (key s : String) (separator : Option String) :
    walk? (tree.put key (.text s)) key separator = some s := by
  simp [walk?, Members.get?_put, Value.text?]

theorem retrieve_of_tree {ι : Type} {o : Options ι} {tree : Members Value} {s : String}
    (ht : c.tree? l.tag ns = some tree) (hw : walk? tree key o.keySeparator.value? = some s) :
    c.retrieve l ns key o = some s := by
  simp [retrieve, ht, hw]

theorem retrieve_add (c : Catalog) (h : given.read = .ok l) (ns key s : String) :
    ∃ c', c.add given ns key (.text s) = .ok c' ∧
      ∀ {ι : Type} (o : Options ι), c'.retrieve l ns key o = some s := by
  refine ⟨_, add_of_read h _, fun o => ?_⟩
  have ht := tree?_modify c l.tag ns (·.put key (.text s)) l.tag ns
  rw [if_pos ⟨rfl, rfl⟩] at ht
  exact retrieve_of_tree ht (walk?_put ..)

end Phrasebook.Catalog
