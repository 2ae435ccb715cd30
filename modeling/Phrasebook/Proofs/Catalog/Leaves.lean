import Phrasebook.Proofs.Catalog.Merging

namespace Phrasebook

open Value

theorem Value.text?_eq_some_iff {v : Value} {s : String} : v.text? = some s ↔ v = .text s := by
  cases v <;> simp [text?]

theorem Value.bind_text?_eq_some_iff {o : Option Value} {s : String} :
    o.bind text? = some s ↔ o = some (.text s) := by
  simp only [Option.bind_eq_some_iff, text?_eq_some_iff, exists_eq_right]

theorem Members.at?_singleton (tree : Members Value) (name : String) :
    tree.at? [name] = tree.get? name := by
  simp only [at?, descend?_cons, members?, Option.getD_some, descend?_nil, Option.bind_fun_some]

theorem Members.LiesOver.exists_of_not_text {source target merged : Members Value}
    {path : List String} {v : Value} (h : LiesOver source target merged path)
    (hv : source.at? path = some v) (ht : v.text? = none) :
    ∃ w, merged.at? path = some w ∧ w.text? = none := by
  cases v
  case object ms => exact ⟨_, h.tree ms hv, rfl⟩
  all_goals exact ⟨_, h.leaf _ hv rfl, ht⟩

namespace Catalog

variable {c : Catalog} {given : Locale.Given} {l : Locale} {tree : Members Value} {key s : String}
  {separator : Option String} {path : List String}

theorem walk?_eq_or :
    walk? tree key separator =
      ((tree.get? key).bind text?).or
        ((Text.path? separator key).bind fun path => (tree.at? path).bind text?) := by
  rw [walk?]
  cases (tree.get? key).bind text? <;> cases Text.path? separator key <;> rfl

theorem walk?_of_path? (hp : Text.path? separator key = some path) :
    walk? tree key separator =
      ((tree.get? key).bind text?).or ((tree.at? path).bind text?) := by
  rw [walk?_eq_or, hp, Option.bind_some]

theorem text_of_walk? (h : walk? tree key separator = some s) :
    tree.get? key = some (.text s) ∨
      ∃ path, Text.path? separator key = some path ∧ tree.at? path = some (.text s) := by
  rw [walk?_eq_or, Option.or_eq_some_iff] at h
  rcases h with h | ⟨_, h⟩
  case inl => exact .inl (bind_text?_eq_some_iff.1 h)
  case inr =>
    obtain ⟨path, hp, h⟩ := Option.bind_eq_some_iff.1 h
    exact .inr ⟨path, hp, bind_text?_eq_some_iff.1 h⟩

theorem walk?_of_not_text {mark : String} {v : Value} (hr : Text.Rejoins mark path)
    (hv : tree.at? path = some v) (ht : v.text? = none) :
    walk? tree (mark.intercalate path) (some mark) =
      (tree.get? (mark.intercalate path)).bind text? := by
  rw [walk?_eq_or]
  cases hp : Text.path? (some mark) (mark.intercalate path)
  case none => rw [Option.bind_none, Option.or_none]
  case some path' =>
    obtain ⟨rfl, -⟩ := (Text.path?_intercalate_eq_some_iff hr).1 hp
    rw [Option.bind_some, hv, Option.bind_some, ht, Option.or_none]

-- A template of a bundle is found under the key that is put together from the names on its path. A
-- single name is such a key for every separator; a longer path gives way to a template under the
-- very key, but not to anything else there. Whatever the key, only templates are found.
theorem leaves_found_by_path (c : Catalog) (hg : given.read = .ok l) (ns : String)
    {source : Members Value} (hs : (Value.object source).Proper) :
    let merged := mergeTree ((c.tree? l.tag ns).getD []) source
    ∃ c',
      c.addBundle given ns source =
        ⟨[.bundleAdded l.tag ns source.length], .done c'⟩ ∧
      c'.tree? l.tag ns = some merged ∧
      (∀ path s, source.at? path = some (.text s) →
        (∀ name, path = [name] → ∀ {ι : Type} (o : Options ι),
          c'.retrieve l ns name o = some s) ∧
        ∀ mark, 2 ≤ path.length → Text.Rejoins mark path →
          ∀ {ι : Type} (o : Options ι), o.keySeparator.value? = some mark →
            c'.retrieve l ns (mark.intercalate path) o =
              some (((merged.get? (mark.intercalate path)).bind text?).getD s)) ∧
      (∀ (mark : Char) (path : List String), path ≠ [] →
        (∀ name ∈ path, mark ∉ name.toList) → Text.Rejoins (String.singleton mark) path) ∧
      (∀ path v mark, source.at? path = some v → v.text? = none → Text.Rejoins mark path →
        walk? merged (mark.intercalate path) (some mark) =
          (merged.get? (mark.intercalate path)).bind text?) ∧
      ∀ key separator s, walk? merged key separator = some s →
        merged.get? key = some (.text s) ∨
          ∃ path, Text.path? separator key = some path ∧ merged.at? path = some (.text s) := by
  intro merged
  let c' := c.modify l.tag ns (mergeTree · source)
  have ht : c'.tree? l.tag ns = some merged := by rw [tree?_modify, if_pos ⟨rfl, rfl⟩]
  have hover := Members.liesOver_mergeTree hs ((c.tree? l.tag ns).getD [])
  refine ⟨c', addBundle_of_read hg ns source, ht, ?found, fun _ _ => Text.rejoins_of_not_mem,
    ?other, fun _ _ _ => text_of_walk?⟩
  case found =>
    intro path s hp
    have hm : merged.at? path = some (.text s) := (hover path).leaf _ hp rfl
    refine ⟨?single, ?longer⟩
    case single =>
      rintro name rfl ι o
      rw [Members.at?_singleton] at hm
      refine retrieve_of_tree ht ?_
      rw [walk?_eq_or, hm]
      rfl
    case longer =>
      intro mark hl hr ι o ho
      refine retrieve_of_tree ht ?_
      rw [ho, walk?_of_path? (Text.path?_eq_some_iff.2 ⟨hr, hl⟩), hm]
      cases (merged.get? (mark.intercalate path)).bind text? <;> rfl
  case other =>
    intro path v mark hv hn hr
    obtain ⟨w, hw, hn⟩ := (hover path).exists_of_not_text hv hn
    exact walk?_of_not_text hr hw hn

theorem drinks_found_by_path :
    let c : Catalog := ⟨[("en", [("menu", [("tea.hot", .int 3), ("milk.cold", .text "Milk")])])]⟩
    let tea : Members Value := [("hot", .text "Tea"), ("price", .int 3)]
    let milk : Members Value := [("cold", .text "Cold milk")]
    let o : Options Empty := .base
    ∃ c' merged,
      (c.addBundle (.tag " en ") "menu" [("tea", .object tea), ("milk", .object milk)]).outcome =
        .done c' ∧
      c'.retrieve ⟨"en", none⟩ "menu" "tea.hot" o = some "Tea" ∧
      c'.retrieve ⟨"en", none⟩ "menu" "milk.cold" o = some "Milk" ∧
      c'.tree? "en" "menu" = some merged ∧ walk? merged "tea.price" (some ".") = none := by
  intro c tea milk o
  have hg : (Locale.Given.tag " en ").read = .ok ⟨"en", none⟩ := by rfl
  have htea : (Value.object tea).Proper :=
    .object (by decide)
      (List.forall_mem_cons.2 ⟨.leaf rfl, List.forall_mem_singleton.2 (.leaf rfl)⟩)
  have hmilk : (Value.object milk).Proper :=
    .object (by decide) (List.forall_mem_singleton.2 (.leaf rfl))
  have hs : (Value.object [("tea", .object tea), ("milk", .object milk)]).Proper :=
    .object (by decide) (List.forall_mem_cons.2 ⟨htea, List.forall_mem_singleton.2 hmilk⟩)
  have ⟨c', hadd, ht, hfound, hsplit, hother, _⟩ := leaves_found_by_path c hg "menu" hs
  have hdot (path : List String) (hp : path ≠ []) (h : ∀ name ∈ path, '.' ∉ name.toList) :
      Text.Rejoins "." path := hsplit '.' path hp h
  refine ⟨c', _, congrArg Run.outcome hadd, ?hot, ?cold, ht, ?price⟩
  case hot =>
    have hr : Text.Rejoins "." ["tea", "hot"] := hdot _ nofun (by decide)
    exact (hfound ["tea", "hot"] "Tea" rfl).2 "." (by decide) hr o rfl
  case cold =>
    have hr : Text.Rejoins "." ["milk", "cold"] := hdot _ nofun (by decide)
    exact (hfound ["milk", "cold"] "Cold milk" rfl).2 "." (by decide) hr o rfl
  case price => exact hother ["tea", "price"] (.int 3) "." rfl rfl (hdot _ nofun (by decide))

end Catalog
end Phrasebook
