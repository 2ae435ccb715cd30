import Phrasebook.Proofs.Catalog.Entries
import Phrasebook.Proofs.Catalog.Paths

namespace Phrasebook

theorem Members.put_of_get? {α : Type} {ms : Members α} {name : String} {a : α}
    (h : ms.get? name = some a) : ms.put name a = ms := by
  induction ms
  case nil => cases h
  case cons m ms ih =>
    rw [get?] at h
    rw [put]
    split at h
    case isTrue hn =>
      cases h
      exact if_pos hn
    case isFalse hn => rw [if_neg hn, ih h]

namespace Value

-- No object in the value has two members of one name.
inductive Proper : Value → Prop
  | leaf {v : Value} (h : v.members? = none) : Proper v
  | object {ms : Members Value} (hd : ms.names.Nodup) (hm : ∀ m ∈ ms, Proper m.2) :
      Proper (.object ms)

theorem Proper.nodup {ms : Members Value} : Proper (.object ms) → ms.names.Nodup
  | object hd _ => hd

theorem Proper.of_mem {ms : Members Value} {m : String × Value} (h : Proper (.object ms))
    (hm : m ∈ ms) : m.2.Proper := by
  cases h
  case leaf h => cases h
  case object hp => exact hp m hm

-- Somewhere on the way, in front of the end of the path, there is a leaf.
def LeafAbove (v : Value) (path : List String) : Prop :=
  ∃ front leaf, front <+: path ∧ front ≠ path ∧ v.descend? front = some leaf ∧
    leaf.members? = none

theorem LeafAbove.cons {v w : Value} {name : String} {path : List String}
    (hn : (v.members?.getD []).get? name = some w) (h : w.LeafAbove path) :
    v.LeafAbove (name :: path) := by
  obtain ⟨front, leaf, hp, hne, hl, hm⟩ := h
  refine ⟨name :: front, leaf, List.cons_prefix_cons.2 ⟨rfl, hp⟩, ?_, ?_, hm⟩
  case refine_1 => simpa using hne
  case refine_2 => rw [descend?_cons, hn, Option.bind_some, hl]

end Value

open Value

theorem mergeValue_of_leaf {v : Value} (h : v.members? = none) (old : Option Value) :
    mergeValue old v = v := by
  cases v
  case object => cases h
  all_goals rw [mergeValue]; exact nofun

theorem get?_mergeTree {source : Members Value} (hd : source.names.Nodup)
    (target : Members Value) (name : String) :
    (mergeTree target source).get? name =
      ((source.get? name).map (mergeValue (target.get? name))).or (target.get? name) := by
  induction source generalizing target
  case nil => rfl
  case cons m source ih =>
    obtain ⟨hm, hd⟩ := List.nodup_cons.1 hd
    rw [mergeTree, ih hd, Members.get?_put, Members.get?]
    by_cases hn : m.1 = name
    case neg => rw [if_neg hn, if_neg hn]
    case pos =>
      subst hn
      rw [if_pos rfl, if_pos rfl, Members.get?_eq_none_iff.2 hm]
      rfl

theorem mergeValue_object (old : Option Value) (source : Members Value) :
    mergeValue old (.object source) =
      .object (mergeTree ((old.bind members?).getD []) source) := by
  rw [mergeValue]

section Paths

variable {v w : Value} {path : List String} {old : Option Value} {name : String}

theorem bind_descend?_cons :
    (old.bind fun o => o.descend? (name :: path)) =
      (((old.bind members?).getD []).get? name).bind fun o => o.descend? path := by
  cases old
  case none => rfl
  case some o => rw [Option.bind_some, Option.bind_some, descend?_cons]

theorem descend?_mergeValue_of_some (hv : v.Proper) (h : v.descend? path = some w) :
    (mergeValue old v).descend? path =
      some (mergeValue (old.bind fun o => o.descend? path) w) := by
  induction path generalizing v old
  case nil =>
    rw [descend?_nil] at h
    cases h
    simp only [descend?_nil, Option.bind_fun_some]
  case cons name path ih =>
    rw [descend?_cons] at h
    obtain ⟨u, hu, hw⟩ := Option.bind_eq_some_iff.1 h
    cases hv
    case leaf hl =>
      rw [hl] at hu
      cases hu
    case object source hd hm =>
      have hu : Members.get? source name = some u := hu
      have hp : u.Proper := hm _ (Members.mem_of_get? hu)
      rw [mergeValue_object, descend?_cons, bind_descend?_cons, members?, Option.getD_some,
        get?_mergeTree hd, hu]
      exact ih hp hw

theorem descend?_mergeValue_of_leaf (hv : v.Proper) (h : v.descend? path = none)
    (hl : v.LeafAbove path) : (mergeValue old v).descend? path = none := by
  obtain ⟨front, leaf, ⟨more, rfl⟩, hne, hf, hm⟩ := hl
  have hmore : more ≠ [] := by
    rintro rfl
    exact hne (List.append_nil front).symm
  rw [descend?_append, descend?_mergeValue_of_some hv hf, mergeValue_of_leaf hm]
  exact descend?_of_leaf hm hmore

theorem descend?_mergeValue_of_none (hv : v.Proper) (h : v.descend? path = none)
    (hl : ¬ v.LeafAbove path) :
    (mergeValue old v).descend? path = old.bind fun o => o.descend? path := by
  induction path generalizing v old
  case nil =>
    rw [descend?_nil] at h
    cases h
  case cons name path ih =>
    cases hv
    case leaf hm => exact absurd ⟨[], v, List.nil_prefix, nofun, descend?_nil v, hm⟩ hl
    case object source hd hm =>
      rw [mergeValue_object, descend?_cons, bind_descend?_cons, members?, Option.getD_some,
        get?_mergeTree hd]
      cases hu : Members.get? source name
      case none => rfl
      case some u =>
        rw [descend?_cons, members?, Option.getD_some, hu] at h
        exact ih (hm _ (Members.mem_of_get? hu)) h fun hl' => hl (hl'.cons hu)

end Paths

namespace Members

def at? (tree : Members Value) (path : List String) : Option Value :=
  (Value.object tree).descend? path

-- How a tree shows at a path that was written over another one.
structure LiesOver (source target merged : Members Value) (path : List String) : Prop where
  leaf : ∀ v, source.at? path = some v → v.members? = none → merged.at? path = some v
  tree : ∀ ms, source.at? path = some (.object ms) →
    merged.at? path = some (.object (mergeTree (((target.at? path).bind members?).getD []) ms))
  hidden : source.at? path = none → (Value.object source).LeafAbove path → merged.at? path = none
  kept : source.at? path = none → ¬ (Value.object source).LeafAbove path →
    merged.at? path = target.at? path

variable {source : Members Value}

theorem liesOver_mergeTree (hs : (Value.object source).Proper) (target : Members Value)
    (path : List String) : LiesOver source target (mergeTree target source) path := by
  have hm : Value.object (mergeTree target source) =
      mergeValue (some (.object target)) (.object source) :=
    (mergeValue_object (some (.object target)) source).symm
  have ht : target.at? path = (some (Value.object target)).bind fun o => o.descend? path := rfl
  constructor
  case leaf =>
    intro v hv hl
    rw [at?, hm, descend?_mergeValue_of_some hs hv, mergeValue_of_leaf hl]
  case tree =>
    intro ms hv
    rw [at?, hm, descend?_mergeValue_of_some hs hv, mergeValue_object, ht]
  case hidden =>
    intro hn hl
    rw [at?, hm, descend?_mergeValue_of_leaf hs hn hl]
  case kept =>
    intro hn hl
    rw [at?, hm, descend?_mergeValue_of_none hs hn hl, ht]

end Members

theorem mergeTree_of_passed {v : Value} {name : String} {source : Members Value}
    (hd : (name :: source.names).Nodup) (target : Members Value) :
    (mergeTree (target.put name v) source).get? name = some v := by
  obtain ⟨hn, hd⟩ := List.nodup_cons.1 hd
  rw [get?_mergeTree hd, Members.get?_eq_none_iff.2 hn, Members.get?_put, if_pos rfl]
  rfl

theorem mergeTree_mergeTree_of_members {source : Members Value} (hd : source.names.Nodup)
    (hm : ∀ m ∈ source, ∀ old, mergeValue (some (mergeValue old m.2)) m.2 = mergeValue old m.2)
    (target : Members Value) :
    mergeTree (mergeTree target source) source = mergeTree target source := by
  induction source generalizing target
  case nil => rfl
  case cons m source ih =>
    obtain ⟨name, v⟩ := m
    obtain ⟨hv, hm⟩ := List.forall_mem_cons.1 hm
    let merged := mergeTree (target.put name (mergeValue (target.get? name) v)) source
    have hname : merged.get? name = some (mergeValue (target.get? name) v) :=
      mergeTree_of_passed hd target
    calc
      _ = mergeTree (merged.put name (mergeValue (merged.get? name) v)) source := by
        rw [mergeTree, mergeTree]
      _ = mergeTree merged source := by rw [hname, hv, Members.put_of_get? hname]
      _ = merged := ih hd.of_cons hm _
      _ = mergeTree target ((name, v) :: source) := by rw [mergeTree]

theorem mergeValue_mergeValue {v : Value} (hv : v.Proper) (old : Option Value) :
    mergeValue (some (mergeValue old v)) v = mergeValue old v := by
  induction hv generalizing old
  case leaf h => rw [mergeValue_of_leaf h, mergeValue_of_leaf h]
  case object ms hd _ ih =>
    have h := mergeTree_mergeTree_of_members hd ih ((old.bind members?).getD [])
    simp only [mergeValue_object, Option.bind_some, members?, Option.getD_some, h]

theorem mergeTree_mergeTree {source : Members Value} (hs : (Value.object source).Proper)
    (target : Members Value) :
    mergeTree (mergeTree target source) source = mergeTree target source :=
  mergeTree_mergeTree_of_members hs.nodup
    (fun _ hm => mergeValue_mergeValue (hs.of_mem hm)) target

namespace Catalog

variable {c : Catalog} {given : Locale.Given} {l : Locale}

theorem modify_of_same {tag ns : String} {f : Members Value → Members Value}
    {tree : Members Value} (ht : c.tree? tag ns = some tree) (hf : f tree = tree) :
    c.modify tag ns f = c := by
  obtain ⟨spaces, hs, ht⟩ := Option.bind_eq_some_iff.1 ht
  simp only [modify, hs, Option.getD_some, ht, hf, Members.put_of_get? ht, Members.put_of_get? hs]

-- A bundle lies over the tree of its namespace, and is there as if it had been merged just once. A
-- path that does not meet one of the bundle leads to what it led to before, and so does every path
-- in other namespaces and under other tags.
theorem bundle_lies_over_tree (c : Catalog) (hg : given.read = .ok l) (ns : String)
    {source : Members Value} (hs : (Value.object source).Proper) :
    let run (c' : Catalog) : Run Notice Catalog :=
      ⟨[.bundleAdded l.tag ns source.length], .done c'⟩
    let target := (c.tree? l.tag ns).getD []
    let merged := mergeTree target source
    ∃ c', c.addBundle given ns source = run c' ∧ c'.addBundle given ns source = run c' ∧
      c'.tree? l.tag ns = some merged ∧
      (∀ path, Members.LiesOver source target merged path) ∧
      (∀ path, path ≠ [] →
        (∀ met, met ≠ [] → source.at? met ≠ none → ¬ met <+: path ∧ ¬ path <+: met) →
        merged.at? path = target.at? path) ∧
      ∀ tag' ns', ¬ (tag' = l.tag ∧ ns' = ns) → c'.tree? tag' ns' = c.tree? tag' ns' := by
  intro run target merged
  let c' := c.modify l.tag ns (mergeTree · source)
  have ht : c'.tree? l.tag ns = some merged := by
    rw [tree?_modify, if_pos ⟨rfl, rfl⟩]
  have hover := Members.liesOver_mergeTree hs target
  refine ⟨c', addBundle_of_read hg ns source, ?again, ht, hover, ?aside, ?elsewhere⟩
  case again =>
    have hsame : c'.modify l.tag ns (mergeTree · source) = c' :=
      modify_of_same ht (mergeTree_mergeTree hs target)
    rw [addBundle_of_read hg, hsame]
  case aside =>
    intro path hp hmet
    have hn : source.at? path = none :=
      Classical.byContradiction fun hn => (hmet path hp hn).1 List.prefix_rfl
    apply (hover path).kept hn
    rintro ⟨front, leaf, hf, -, hl, hm⟩
    have hl : source.at? front = some leaf := hl
    have hne : front ≠ [] := by
      rintro rfl
      cases hl.symm.trans (descend?_nil _)
      cases hm
    exact (hmet front hne (hl ▸ nofun)).1 hf
  case elsewhere =>
    intro tag' ns' hne
    rw [tree?_modify, if_neg fun h => hne ⟨h.1.symm, h.2.symm⟩]

theorem menu_lies_over_tree :
    let c : Catalog := ⟨[("en", [("menu", [("tea", .object [("hot", .text "Tea"),
      ("iced", .text "Iced tea")]), ("milk", .object [("cold", .text "Milk")])])])]⟩
    let source : Members Value :=
      [("tea", .object [("hot", .object [("one", .text "A tea")])]), ("milk", .text "No milk")]
    ∃ c' merged, (c.addBundle (.tag " en ") "menu" source).outcome = .done c' ∧
      c'.tree? "en" "menu" = some merged ∧
      merged.at? ["tea", "hot", "one"] = some (.text "A tea") ∧
      merged.at? ["tea", "iced"] = some (.text "Iced tea") ∧
      merged.at? ["milk"] = some (.text "No milk") ∧
      merged.at? ["milk", "cold"] = none := by
  intro c source
  have hg : (Locale.Given.tag " en ").read = .ok ⟨"en", none⟩ := by rfl
  have hone : (Value.object [("one", .text "A tea")]).Proper :=
    .object (by decide) (List.forall_mem_singleton.2 (.leaf rfl))
  have htea : (Value.object [("hot", .object [("one", .text "A tea")])]).Proper :=
    .object (by decide) (List.forall_mem_singleton.2 hone)
  have hs : (Value.object source).Proper :=
    .object (by decide) (List.forall_mem_cons.2 ⟨htea, List.forall_mem_singleton.2 (.leaf rfl)⟩)
  have ⟨c', hadd, _, ht, hover, _⟩ := bundle_lies_over_tree c hg "menu" hs
  refine ⟨c', _, congrArg Run.outcome hadd, ht, (hover _).leaf _ rfl rfl, ?iced,
    (hover _).leaf _ rfl rfl, ?cold⟩
  case iced =>
    apply (hover _).kept rfl
    rintro ⟨front, leaf, hp, hne, hl, hm⟩
    have hfront : front = [] ∨ front = ["tea"] := by
      have hp : front <+: ["tea"] := (List.prefix_concat_iff.1 hp).resolve_left hne
      exact (List.prefix_concat_iff.1 hp).symm.imp_left List.prefix_nil.1
    rcases hfront with rfl | rfl <;> cases hl <;> cases hm
  case cold =>
    exact (hover _).hidden rfl ⟨["milk"], _, ⟨["cold"], rfl⟩, nofun, rfl, rfl⟩

end Catalog
end Phrasebook
