import Phrasebook.Proofs.Catalog.Leaves

namespace Phrasebook

open Value

variable {tree : Members Value} {name s : String} {separator : Option String} {v : Value}

def Members.AtSplit (tree : Members Value) (separator : Option String) (name : String) (v : Value) :
    Prop :=
  ∃ path, Text.Splits separator name path ∧ (Value.object tree).Leads path v

theorem Members.atSplit_iff :
    tree.AtSplit separator name v ↔ ((Text.path? separator name).bind tree.at?) = some v := by
  simp only [AtSplit, Text.splits_iff, ← descend?_eq_some_iff, Option.bind_eq_some_iff, at?]

-- For names that can be put together and split again, the end of the split path is the end of the
-- path that the name was put together from.
theorem Members.atSplit_intercalate_iff {mark : String} {path : List String}
    (hr : Text.Rejoins mark path) :
    tree.AtSplit (some mark) (mark.intercalate path) v ↔
      2 ≤ path.length ∧ (Value.object tree).Leads path v := by
  simp only [AtSplit, Text.splits_iff, Text.path?_intercalate_eq_some_iff hr]
  constructor
  case mp =>
    rintro ⟨_, ⟨rfl, hl⟩, hv⟩
    exact ⟨hl, hv⟩
  case mpr =>
    rintro ⟨hl, hv⟩
    exact ⟨path, ⟨rfl, hl⟩, hv⟩

theorem Value.bind_text?_eq_none_iff {o : Option Value} :
    o.bind text? = none ↔ o = none ∨ ∃ v, o = some v ∧ v.text? = none := by
  cases o <;> simp

theorem Bag.lookup?_eq_some_iff :
    Bag.lookup? tree name separator = some v ↔
      tree.get? name = some v ∨ tree.get? name = none ∧ tree.AtSplit separator name v := by
  have hor : Bag.lookup? tree name separator =
      (tree.get? name).or ((Text.path? separator name).bind tree.at?) := by
    rw [lookup?]
    cases tree.get? name <;> cases Text.path? separator name <;> rfl
  rw [hor, Option.or_eq_some_iff, Members.atSplit_iff]

theorem Bag.lookup?_intercalate_eq_some_iff {mark : String} {path : List String} (hp : path ≠ [])
    (hr : Text.Rejoins mark path) (hn : tree.get? (mark.intercalate path) = none) :
    Bag.lookup? tree (mark.intercalate path) (some mark) = some v ↔
      (Value.object tree).Leads path v := by
  rw [lookup?_eq_some_iff, hn, Members.atSplit_intercalate_iff hr]
  constructor
  case mp =>
    rintro (h | ⟨-, -, hv⟩)
    case inl => cases h
    case inr => exact hv
  case mpr =>
    intro hv
    refine .inr ⟨rfl, ?_, hv⟩
    obtain ⟨name, rest, rfl⟩ := List.exists_cons_of_ne_nil hp
    cases rest
    case nil =>
      -- A single name leads to a member of the very name.
      cases hv
      case onward hname _ =>
        rw [String.intercalate_singleton] at hn
        cases hn.symm.trans hname
    case cons => exact Nat.le_add_left 2 _

namespace Catalog

theorem walk?_eq_some_iff :
    walk? tree name separator = some s ↔
      tree.get? name = some (.text s) ∨
        (tree.get? name).bind text? = none ∧ tree.AtSplit separator name (.text s) := by
  rw [walk?_eq_or, ← Option.bind_assoc, Option.or_eq_some_iff, bind_text?_eq_some_iff,
    bind_text?_eq_some_iff, Members.atSplit_iff]

theorem walk?_of_other (hv : tree.get? name = some v) (ht : v.text? = none) :
    walk? tree name separator = some s ↔ tree.AtSplit separator name (.text s) := by
  have hs : tree.get? name ≠ some (.text s) := by
    rw [hv]
    rintro ⟨rfl⟩
    cases ht
  rw [walk?_eq_some_iff, hv, Option.bind_some]
  exact ⟨fun h => (h.resolve_left (hv ▸ hs)).2, fun h => .inr ⟨ht, h⟩⟩

theorem walk?_eq_bind_lookup? (h : ¬ ∃ v, tree.get? name = some v ∧ v.text? = none) :
    walk? tree name separator = (Bag.lookup? tree name separator).bind text? := by
  have hn : (tree.get? name).bind text? = none ↔ tree.get? name = none := by
    rw [bind_text?_eq_none_iff, or_iff_left h]
  ext s
  rw [bind_text?_eq_some_iff, walk?_eq_some_iff, Bag.lookup?_eq_some_iff, hn]

-- As long as nothing but a text stands under the very name, a template is found just where a
-- variable is found that is a text. Anything else there is the variable, and the template is then
-- the text at the end of the split path. A name that was put together with a mark that is in none
-- of its parts is split into these parts again.
theorem lookups_agree (tree : Members Value) (name : String) (separator : Option String) :
    ((¬ ∃ v, tree.get? name = some v ∧ v.text? = none) →
      (∀ s, walk? tree name separator = some s ↔
        Bag.lookup? tree name separator = some (.text s)) ∧
      (walk? tree name separator = none ↔
        Bag.lookup? tree name separator = none ∨
          ∃ v, Bag.lookup? tree name separator = some v ∧ v.text? = none)) ∧
    (∀ v, tree.get? name = some v → v.text? = none →
      Bag.lookup? tree name separator = some v ∧
      (∀ s, walk? tree name separator = some s ↔ tree.AtSplit separator name (.text s)) ∧
      (walk? tree name separator = none ↔ ∀ s, ¬ tree.AtSplit separator name (.text s))) ∧
    (∀ v, Bag.lookup? tree name separator = some v ↔
      tree.get? name = some v ∨ tree.get? name = none ∧ tree.AtSplit separator name v) ∧
    ∀ (c : Char) (path : List String), path ≠ [] → (∀ part ∈ path, c ∉ part.toList) →
      let mark := String.singleton c
      let joined := mark.intercalate path
      ∀ v, (tree.AtSplit (some mark) joined v ↔
          2 ≤ path.length ∧ (Value.object tree).Leads path v) ∧
        (tree.get? joined = none →
          (Bag.lookup? tree joined (some mark) = some v ↔ (Value.object tree).Leads path v)) := by
  refine ⟨fun h => ?agree, fun v hv ht => ?other, fun v => Bag.lookup?_eq_some_iff,
    fun c path hp hc => ?joined⟩
  case agree =>
    rw [walk?_eq_bind_lookup? h]
    exact ⟨fun s => bind_text?_eq_some_iff, bind_text?_eq_none_iff⟩
  case other =>
    have hwalk (s : String) :
        walk? tree name separator = some s ↔ tree.AtSplit separator name (.text s) :=
      walk?_of_other hv ht
    refine ⟨Bag.lookup?_eq_some_iff.2 (.inl hv), hwalk, ?_⟩
    simp only [Option.eq_none_iff_forall_ne_some, Ne, hwalk]
  case joined =>
    intro mark joined v
    have hr : Text.Rejoins mark path := Text.rejoins_of_not_mem hp hc
    exact ⟨Members.atSplit_intercalate_iff hr, Bag.lookup?_intercalate_eq_some_iff hp hr⟩

theorem ada_found_by_path :
    let ada : Members Value := [("name", .text "Ada"), ("age", .int 36)]
    let tree : Members Value := [("user", .object ada), ("user.name", .int 7)]
    (¬ ∃ v, tree.get? "user.age" = some v ∧ v.text? = none) ∧
      Bag.lookup? tree "user.age" (some ".") = some (.int 36) ∧
      walk? tree "user.age" (some ".") = none ∧
      tree.get? "user.name" = some (.int 7) ∧
      Bag.lookup? tree "user.name" (some ".") = some (.int 7) ∧
      walk? tree "user.name" (some ".") = some "Ada" := by
  intro ada tree
  have hnone : tree.get? "user.age" = none := by rfl
  have hother : ¬ ∃ v, tree.get? "user.age" = some v ∧ v.text? = none := by
    rintro ⟨v, hv, -⟩
    cases hnone.symm.trans hv
  obtain ⟨hagree, -, -, hjoined⟩ := lookups_agree tree "user.age" (some ".")
  obtain ⟨-, hseven, -, -⟩ := lookups_agree tree "user.name" (some ".")
  have hage : Bag.lookup? tree "user.age" (some ".") = some (.int 36) :=
    ((hjoined '.' ["user", "age"] (List.cons_ne_nil _ _) (by decide) _).2 hnone).2
      (.onward rfl (.onward rfl .here))
  have hname : tree.AtSplit (some ".") "user.name" (.text "Ada") :=
    (hjoined '.' ["user", "name"] (List.cons_ne_nil _ _) (by decide) _).1.2
      ⟨Nat.le_refl 2, .onward rfl (.onward rfl .here)⟩
  obtain ⟨hlookup, hwalk, -⟩ := hseven (.int 7) rfl rfl
  exact ⟨hother, hage, (hagree hother).2.2 (.inr ⟨_, hage, rfl⟩), rfl, hlookup,
    (hwalk "Ada").2 hname⟩

end Catalog
end Phrasebook
