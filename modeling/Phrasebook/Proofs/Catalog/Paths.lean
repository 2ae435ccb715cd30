import Phrasebook.Proofs.Text.Occurrences
import Phrasebook.Value

namespace Phrasebook

namespace Value

theorem descend?_nil (v : Value) : v.descend? [] = some v := by
  rw [descend?]

theorem descend?_cons (v : Value) (name : String) (path : List String) :
    v.descend? (name :: path) =
      ((v.members?.getD []).get? name).bind fun w => w.descend? path := by
  rw [descend?]
  cases v <;> rfl

theorem descend?_append (v : Value) (path more : List String) :
    v.descend? (path ++ more) = (v.descend? path).bind fun w => w.descend? more := by
  induction path generalizing v
  case nil => rw [List.nil_append, descend?_nil, Option.bind_some]
  case cons name path ih =>
    simp only [List.cons_append, descend?_cons, Option.bind_assoc, ih]

theorem descend?_of_leaf {v : Value} {path : List String} (h : v.members? = none)
    (hp : path ≠ []) : v.descend? path = none := by
  cases path
  case nil => exact absurd rfl hp
  case cons name path => rw [descend?_cons, h, Option.getD_none, Members.get?, Option.bind_none]

-- A path leads from one object to the next, each time to the member of the name that comes first.
inductive Leads : Value → List String → Value → Prop
  | here {v : Value} : Leads v [] v
  | onward {ms : Members Value} {name : String} {path : List String} {w v : Value}
      (hn : ms.get? name = some w) (hl : Leads w path v) : Leads (.object ms) (name :: path) v

theorem descend?_eq_some_iff {v w : Value} {path : List String} :
    v.descend? path = some w ↔ v.Leads path w := by
  constructor
  case mp =>
    intro h
    induction path generalizing v
    case nil =>
      rw [descend?_nil] at h
      cases h
      exact .here
    case cons name path ih =>
      rw [descend?_cons] at h
      obtain ⟨u, hu, hw⟩ := Option.bind_eq_some_iff.1 h
      cases v
      case object ms => exact .onward hu (ih hw)
      all_goals cases hu
  case mpr =>
    intro h
    induction h
    case here => exact descend?_nil _
    case onward hn _ ih => rw [descend?_cons, members?, Option.getD_some, hn, Option.bind_some, ih]

end Value

namespace Text

theorem parts_ne_nil (mark text : List Char) : parts mark text ≠ [] := by
  rw [parts]
  split
  case isTrue => exact List.cons_ne_nil _ _
  case isFalse => split <;> exact List.cons_ne_nil _ _

theorem parts_of_cut? {mark text before rest : List Char} (hm : mark ≠ [])
    (h : cut? mark text = some (before, rest)) : parts mark text = before :: parts mark rest := by
  rw [parts, dif_neg hm]
  split
  case h_1 hc =>
    cases h.symm.trans hc
    rfl
  case h_2 hc => cases h.symm.trans hc

theorem exists_of_path? {mark : Option String} {text : String} {path : List String}
    (h : path? mark text = some path) : ∃ first rest, path = first :: rest ∧ rest ≠ [] := by
  obtain ⟨m, hp, rfl⟩ := Option.map_eq_some_iff.1 h
  have ⟨_, hm⟩ := Option.filter_eq_some_iff.1 hp
  have ⟨hn, hc⟩ := (Bool.and_eq_true _ _).mp hm
  have ⟨⟨before, rest⟩, hc⟩ := Option.isSome_iff_exists.1 hc
  have hn : m.toList ≠ [] := by simpa using hn
  rw [parts_of_cut? hn hc]
  exact ⟨_, _, rfl, by simpa using parts_ne_nil m.toList rest⟩

theorem parts_of_cut?_eq_none {mark text : List Char} (h : cut? mark text = none) :
    parts mark text = [text] := by
  rw [parts]
  split
  case isTrue => rfl
  case isFalse =>
    split
    case h_1 hc => cases h.symm.trans hc
    case h_2 => rfl

-- A text taken apart at a mark, from the left: each part ends where the mark comes next.
inductive Parted (mark : List Char) : List Char → List (List Char) → Prop
  | last {text : List Char} (h : ¬ mark <:+: text) : Parted mark text [text]
  | cons {before rest : List Char} {found : List (List Char)} (hf : First mark before rest)
      (hp : Parted mark rest found) : Parted mark (before ++ mark ++ rest) (before :: found)

theorem parted_iff {mark text : List Char} {found : List (List Char)} (hm : mark ≠ []) :
    Parted mark text found ↔ parts mark text = found := by
  constructor
  case mp =>
    intro h
    induction h
    case last h => exact parts_of_cut?_eq_none (cut?_eq_none_iff.2 h)
    case cons hf _ ih => rw [parts_of_cut? hm (cut?_of_first hf), ih]
  case mpr =>
    rintro rfl
    fun_induction parts mark text
    case case1 h => exact absurd h hm
    case case2 hc _ ih =>
      obtain ⟨ht, hf⟩ := cut?_eq_some_iff.1 hc
      exact ht ▸ .cons hf ih
    case case3 hc => exact .last (cut?_eq_none_iff.1 hc)

inductive Splits : Option String → String → List String → Prop
  | intro {mark name : String} {path : List String} (hm : mark ≠ "")
      (ho : mark.toList <:+: name.toList)
      (hp : Parted mark.toList name.toList (path.map String.toList)) : Splits (some mark) name path

theorem present?_eq_some_iff {separator : Option String} {mark text : String} :
    present? separator text = some mark ↔
      separator = some mark ∧ mark ≠ "" ∧ mark.toList <:+: text.toList := by
  rw [present?, Option.filter_eq_some_iff, Bool.and_eq_true, Option.isSome_iff_ne_none, Ne,
    cut?_eq_none_iff, Classical.not_not, Bool.not_eq_true', String.isEmpty_eq_false_iff]

theorem splits_iff {separator : Option String} {name : String} {path : List String} :
    Splits separator name path ↔ path? separator name = some path := by
  rw [path?, Option.map_eq_some_iff]
  constructor
  case mp =>
    intro h
    cases h
    case intro mark hm ho hp =>
      have hparts := (parted_iff (mt String.toList_eq_nil_iff.1 hm)).1 hp
      exact ⟨mark, present?_eq_some_iff.2 ⟨rfl, hm, ho⟩, by simp [hparts]⟩
  case mpr =>
    rintro ⟨mark, hpresent, rfl⟩
    obtain ⟨rfl, hm, ho⟩ := present?_eq_some_iff.1 hpresent
    exact .intro hm ho ((parted_iff (mt String.toList_eq_nil_iff.1 hm)).2 (by simp))

theorem parts_of_present?_eq_none {mark text : String} (h : present? (some mark) text = none) :
    parts mark.toList text.toList = [text.toList] := by
  have h := Option.filter_eq_none_iff.1 h mark rfl
  cases hc : cut? mark.toList text.toList
  case none => exact parts_of_cut?_eq_none hc
  case some =>
    have hm : mark.toList = [] := by simpa [hc] using h
    rw [parts, dif_pos hm]

theorem path?_eq_some_iff {mark text : String} {path : List String} :
    path? (some mark) text = some path ↔
      parts mark.toList text.toList = path.map String.toList ∧ 2 ≤ path.length := by
  constructor
  case mp =>
    intro h
    obtain ⟨first, rest, hpath, hrest⟩ := exists_of_path? h
    obtain ⟨m, hm, rfl⟩ := Option.map_eq_some_iff.1 h
    cases (Option.filter_eq_some_iff.1 hm).1
    refine ⟨by simp, ?_⟩
    rw [hpath, List.length_cons]
    exact Nat.succ_le_succ (List.length_pos_iff.2 hrest)
  case mpr =>
    rintro ⟨h, hl⟩
    cases hm : present? (some mark) text
    case none =>
      have hlen := congrArg List.length ((parts_of_present?_eq_none hm).symm.trans h)
      simp at hlen
      omega
    case some m =>
      cases (Option.filter_eq_some_iff.1 hm).1
      simp [path?, hm, h]

theorem parts_intercalate {c : Char} {path : List (List Char)} (hp : path ≠ [])
    (h : ∀ name ∈ path, c ∉ name) : parts [c] ([c].intercalate path) = path := by
  induction path
  case nil => exact absurd rfl hp
  case cons name path ih =>
    obtain ⟨hc, hpath⟩ := List.forall_mem_cons.1 h
    cases path
    case nil =>
      rw [List.intercalate_singleton, parts_of_cut?_eq_none (cut?_eq_none_of_not_mem hc)]
    case cons next path =>
      have hcut : cut? [c] ([c].intercalate (name :: next :: path)) =
          some (name, [c].intercalate (next :: path)) := by
        rw [List.intercalate_cons_cons]
        exact cut?_of_not_mem hc
      rw [parts_of_cut? (List.cons_ne_nil _ _) hcut, ih (List.cons_ne_nil _ _) hpath]

def Rejoins (separator : String) (path : List String) : Prop :=
  parts separator.toList (separator.intercalate path).toList = path.map String.toList

theorem path?_intercalate_eq_some_iff {separator : String} {path path' : List String}
    (hr : Rejoins separator path) :
    path? (some separator) (separator.intercalate path) = some path' ↔
      path' = path ∧ 2 ≤ path.length := by
  have hinj : path.map String.toList = path'.map String.toList ↔ path = path' :=
    List.map_inj_right fun _ _ => String.toList_inj.1
  rw [path?_eq_some_iff, hr, hinj, eq_comm]
  exact and_congr_right fun h => by rw [h]

theorem rejoins_of_not_mem {mark : Char} {path : List String} (hp : path ≠ [])
    (h : ∀ name ∈ path, mark ∉ name.toList) : Rejoins (String.singleton mark) path := by
  rw [Rejoins, String.toList_intercalate, String.toList_singleton]
  exact parts_intercalate (by simpa using hp) (List.forall_mem_map.2 h)

end Text
end Phrasebook
