import Phrasebook.Proofs.Catalog.Entries
import Phrasebook.Proofs.Run.Results
import Phrasebook.Proofs.Text.Occurrences
import Phrasebook.Proofs.Text.Trimming

namespace Phrasebook

namespace Locale

def dash (c : Char) : Char :=
  if c = '_' then '-' else c

def dashed (text : List Char) : List Char :=
  (Text.trimmed text).map dash

-- The locale that a spelling without blanks around it names. A dash at its end does not count.
inductive Names : List Char → Locale → Prop
  | language {tag : List Char} (hne : tag ≠ []) (h : '-' ∉ tag) :
    Names tag ⟨String.ofList tag, none⟩
  | region {language region : List Char} (h : '-' ∉ language) (hr : region ≠ []) :
    Names (language ++ '-' :: region) ⟨String.ofList language, some (String.ofList region)⟩
  | cropped {language : List Char} (h : '-' ∉ language) :
    Names (language ++ ['-']) ⟨String.ofList language, none⟩

variable {text : String} {tag language : List Char} {l : Locale}

theorem dash_of_ne {c : Char} (h : c ≠ '_') : dash c = c :=
  if_neg h

theorem dash_ne (c : Char) : dash c ≠ '_' := by
  unfold dash
  split
  case isTrue => decide
  case isFalse h => exact h

theorem isBlank_dash (c : Char) : Text.isBlank (dash c) = Text.isBlank c := by
  unfold dash
  split
  case isTrue h => subst h; decide
  case isFalse => rfl

theorem map_dash (h : '_' ∉ tag) : tag.map dash = tag := by
  have hd : ∀ c ∈ tag, dash c = id c := by
    intro c hc
    refine dash_of_ne ?_
    rintro rfl
    exact h hc
  rw [List.map_congr_left hd, List.map_id]

theorem dashed_eq_trimmed (h : '_' ∉ tag) : dashed tag = Text.trimmed tag :=
  map_dash fun hm => h (Text.trimmed_subset tag hm)

theorem underscore_not_mem_dashed (text : List Char) : '_' ∉ dashed text := by
  intro h
  obtain ⟨c, _, hc⟩ := List.mem_map.1 h
  exact dash_ne c hc

theorem unpadded_dashed (text : List Char) : Text.Unpadded (dashed text) := by
  rw [← Text.trimmed_eq_self_iff, dashed, Text.trimmed_map isBlank_dash,
    (Text.unpadded_trimmed text).trimmed_eq]

theorem dashed_dashed (text : List Char) : dashed (dashed text) = dashed text := by
  rw [dashed_eq_trimmed (underscore_not_mem_dashed text), (unpadded_dashed text).trimmed_eq]

theorem cut?_dash (h : '-' ∉ language) (region : List Char) :
    Text.cut? ['-'] (language ++ '-' :: region) = some (language, region) := by
  have hc : Text.cut? ['-'] (language ++ ['-'] ++ region) = some (language, region) :=
    Text.cut?_of_not_mem h
  rwa [List.append_assoc, List.singleton_append] at hc

theorem parse_eq (text : String) :
    parse text =
      if (dashed text.toList).isEmpty then .error .blankTag
      else match Text.cut? ['-'] (dashed text.toList) with
        | some (language, region) =>
          .ok ⟨String.ofList language, if region.isEmpty then none else some (String.ofList region)⟩
        | none => .ok ⟨String.ofList (dashed text.toList), none⟩ :=
  rfl

theorem parse_eq_ok_iff : parse text = .ok l ↔ Names (dashed text.toList) l := by
  rw [parse_eq]
  generalize dashed text.toList = tag
  constructor
  case mp =>
    intro h
    split at h
    case isTrue => cases h
    case isFalse hne =>
      have hne : tag ≠ [] := by simpa using hne
      cases hc : Text.cut? ['-'] tag <;> rw [hc] at h <;> cases h
      case none =>
        have hm : '-' ∉ tag := by simpa [Text.cut?_eq_none_iff, List.singleton_infix_iff] using hc
        exact .language hne hm
      case some p =>
        obtain ⟨language, region⟩ := p
        have hm := Text.not_mem_of_cut? hc
        rw [Text.eq_of_cut? hc]
        cases region
        case nil => simpa using Names.cropped hm
        case cons c region => simpa using Names.region hm (List.cons_ne_nil c region)
  case mpr =>
    intro h
    cases h
    case language hne hm => simp [hne, Text.cut?_eq_none_of_not_mem hm]
    case region language region hm hr => simp [cut?_dash hm region, hr]
    case cropped language hm => simp [cut?_dash hm []]

theorem parse_eq_error_iff :
    parse text = .error .blankTag ↔ ∀ c ∈ text.toList, Text.isBlank c := by
  rw [← Text.trimmed_eq_nil_iff, parse_eq, dashed]
  cases Text.trimmed text.toList
  case nil => exact iff_of_true rfl rfl
  case cons =>
    refine iff_of_false ?_ (List.cons_ne_nil _ _)
    cases Text.cut? ['-'] _ <;> nofun

theorem parse_eq_error_or (text : String) :
    parse text = .error .blankTag ∨ ∃ l, parse text = .ok l := by
  rw [parse_eq]
  split
  case isTrue => exact .inl rfl
  case isFalse => cases Text.cut? ['-'] (dashed text.toList) <;> exact .inr ⟨_, rfl⟩

theorem Names.unique {l' : Locale} (h : Names (dashed text.toList) l)
    (h' : Names (dashed text.toList) l') : l = l' := by
  have hp := (parse_eq_ok_iff.2 h).symm.trans (parse_eq_ok_iff.2 h')
  cases hp
  rfl

theorem Names.ne_nil (h : Names tag l) : tag ≠ [] := by
  cases h
  case language hne _ => exact hne
  all_goals simp

theorem toList_tag_language :
    (Locale.tag ⟨String.ofList language, none⟩).toList = language :=
  String.toList_ofList

theorem toList_tag_region {region : List Char} (hr : region ≠ []) :
    (Locale.tag ⟨String.ofList language, some (String.ofList region)⟩).toList =
      language ++ '-' :: region := by
  have hn : (String.ofList region).isEmpty = false := by simpa using hr
  simp [Locale.tag, Option.filter, hn]

theorem Names.toList_tag (h : Names tag l) :
    l.tag.toList = tag ∨ ∃ language, '-' ∉ language ∧ tag = language ++ ['-'] ∧
      l = ⟨String.ofList language, none⟩ := by
  cases h
  case language => exact .inl toList_tag_language
  case region hr => exact .inl (toList_tag_region hr)
  case cropped language hm => exact .inr ⟨language, hm, rfl, rfl⟩

-- A spelling that ends in its only dash, with nothing or a blank right in front of it.
def Dangling (text : String) : Prop :=
  ∃ language d, Text.trimmed text.toList = language ++ [d] ∧ d ∈ ['-', '_'] ∧
    (∀ c ∈ language, c ∉ ['-', '_']) ∧ ∀ c ∈ language.getLast?, Text.isBlank c

theorem dash_eq_iff {c : Char} : dash c = '-' ↔ c ∈ ['-', '_'] := by
  unfold dash
  split
  case isTrue h => simp [h]
  case isFalse h => simp [h]

theorem dashed_eq_dash_iff :
    dashed text.toList = ['-'] ↔ Text.trimmed text.toList ∈ [['-'], ['_']] := by
  rw [dashed, List.map_eq_singleton_iff]
  simp only [dash_eq_iff, List.mem_cons, List.not_mem_nil, or_false, and_or_left, exists_or,
    exists_eq_right]

theorem dashed_eq_concat_iff :
    dashed text.toList = language ++ ['-'] ∧ '-' ∉ language ↔
      ∃ d, Text.trimmed text.toList = language ++ [d] ∧ d ∈ ['-', '_'] ∧
        ∀ c ∈ language, c ∉ ['-', '_'] := by
  constructor
  case mp =>
    rintro ⟨h, hm⟩
    obtain ⟨front, last, ht, hf, hl⟩ := List.map_eq_append_iff.1 h
    obtain ⟨d, rest, rfl, hd, hr⟩ := List.map_eq_cons_iff.1 hl
    obtain rfl := List.map_eq_nil_iff.1 hr
    have hfront : ∀ c ∈ front, c ∉ ['-', '_'] := by
      intro c hc hdash
      exact hm (hf ▸ List.mem_map.2 ⟨c, hc, dash_eq_iff.2 hdash⟩)
    have hmap : front.map dash = front := map_dash fun hu => hfront _ hu (by decide)
    rw [hmap] at hf
    exact ⟨d, hf ▸ ht, dash_eq_iff.1 hd, hf ▸ hfront⟩
  case mpr =>
    rintro ⟨d, ht, hd, hm⟩
    have hmap : language.map dash = language := map_dash fun hu => hm _ hu (by decide)
    refine ⟨?_, fun hmem => hm _ hmem (by decide)⟩
    rw [dashed, ht, List.map_append, hmap, List.map_singleton, dash_eq_iff.2 hd]

theorem dangling_iff : Dangling text ↔ ∃ language, dashed text.toList = language ++ ['-'] ∧
    '-' ∉ language ∧ ∀ c ∈ language.getLast?, Text.isBlank c := by
  refine exists_congr fun language => ?_
  rw [← and_assoc (a := dashed text.toList = _), dashed_eq_concat_iff]
  simp only [← exists_and_right, and_assoc]

theorem dangling_of_dashed_eq (ht : dashed text.toList = language ++ ['-']) (hm : '-' ∉ language) :
    Dangling text ↔ ∀ c ∈ language.getLast?, Text.isBlank c := by
  rw [dangling_iff]
  constructor
  case mp =>
    rintro ⟨other, ho, -, hb⟩
    obtain rfl := List.append_cancel_right (ht.symm.trans ho)
    exact hb
  case mpr => exact fun hb => ⟨language, ht, hm, hb⟩

theorem names_dashed_iff (hm : '-' ∉ language) (hu : '_' ∉ language) :
    Names (dashed language) ⟨String.ofList language, none⟩ ↔
      language ≠ [] ∧ Text.Unpadded language := by
  rw [dashed_eq_trimmed hu, ← Text.trimmed_eq_self_iff]
  constructor
  case mp =>
    intro hn
    rcases hn.toList_tag with ht | ⟨other, -, ht, -⟩
    case inl =>
      rw [toList_tag_language] at ht
      exact ⟨ht ▸ hn.ne_nil, ht.symm⟩
    case inr =>
      have hd : '-' ∈ Text.trimmed language := by simp [ht]
      exact absurd (Text.trimmed_subset language hd) hm
  case mpr =>
    rintro ⟨hne, ht⟩
    rw [ht]
    exact .language hne hm

theorem unpadded_iff_last {c : Char} (h : Text.Unpadded (language ++ [c])) :
    language ≠ [] ∧ Text.Unpadded language ↔ ¬ ∀ d ∈ language.getLast?, Text.isBlank d := by
  constructor
  case mp =>
    rintro ⟨hne, hu⟩ hb
    have hl := List.getLast?_eq_getLast_of_ne_nil hne
    exact absurd (hb _ hl) (by simp [hu.last _ hl])
  case mpr =>
    intro hb
    obtain ⟨d, hd, hn⟩ : ∃ d ∈ language.getLast?, ¬ Text.isBlank d := by simpa using hb
    have hne : language ≠ [] := by
      rintro rfl
      cases hd
    refine ⟨hne, fun e he => h.head e ?_, fun e he => ?_⟩
    case refine_1 => simp [List.head?_append, Option.mem_def.1 he]
    case refine_2 =>
      cases Option.mem_unique he hd
      simpa using hn

theorem parse_tag_iff (h : parse text = .ok l) : parse l.tag = .ok l ↔ ¬ Dangling text := by
  have hn := parse_eq_ok_iff.1 h
  have hu := underscore_not_mem_dashed text.toList
  rw [parse_eq_ok_iff]
  rcases hn.toList_tag with ht | ⟨language, hm, ht, rfl⟩
  case inl =>
    have hd : ¬ Dangling text := by
      rw [dangling_iff]
      rintro ⟨language, hlast, hm, -⟩
      obtain rfl : l = ⟨String.ofList language, none⟩ := hn.unique (hlast ▸ .cropped hm)
      rw [toList_tag_language, hlast] at ht
      simp at ht
    rw [ht, dashed_dashed]
    exact iff_of_true hn hd
  case inr =>
    have hul : '_' ∉ language := by
      intro hmem
      exact hu (ht ▸ List.mem_append_left _ hmem)
    rw [toList_tag_language, names_dashed_iff hm hul, dangling_of_dashed_eq ht hm]
    exact unpadded_iff_last (ht ▸ unpadded_dashed text.toList)

theorem tag_eq_empty_iff (h : parse text = .ok l) :
    l.tag = "" ↔ Text.trimmed text.toList ∈ [['-'], ['_']] := by
  have hn := parse_eq_ok_iff.1 h
  rw [← dashed_eq_dash_iff, ← String.toList_eq_nil_iff]
  rcases hn.toList_tag with ht | ⟨language, -, ht, rfl⟩
  case inl =>
    refine iff_of_false (ht ▸ hn.ne_nil) fun hd => hn.ne_nil ?_
    obtain rfl : l = ⟨String.ofList [], none⟩ :=
      hn.unique (hd ▸ .cropped List.not_mem_nil)
    rw [← ht, toList_tag_language]
  case inr => rw [toList_tag_language, ht, List.append_eq_singleton_iff]; simp

end Locale

namespace Catalog

inductive Spelled (P : String → Prop) : Catalog → Prop
  | empty : Spelled P {}
  | add {c c' : Catalog} {text ns key : String} {v : Value} (h : Spelled P c) (ht : P text)
      (hc : c.add (.tag text) ns key v = .ok c') : Spelled P c'
  | bundle {c c' : Catalog} {text ns : String} {source : Members Value} (h : Spelled P c)
      (ht : P text) (hc : (c.addBundle (.tag text) ns source).outcome = .done c') : Spelled P c'

variable {P : String → Prop} {c : Catalog} {tag ns : String}

theorem exists_of_add {c' : Catalog} {given : Locale.Given} {key : String} {v : Value}
    (h : c.add given ns key v = .ok c') :
    ∃ l f, given.read = .ok l ∧ c' = c.modify l.tag ns f := by
  cases hl : given.read
  case error =>
    rw [add, hl] at h
    cases h
  case ok l =>
    rw [add_of_read hl] at h
    cases h
    exact ⟨l, _, rfl, rfl⟩

theorem exists_of_addBundle {c' : Catalog} {given : Locale.Given} {source : Members Value}
    (h : (c.addBundle given ns source).outcome = .done c') :
    ∃ l f, given.read = .ok l ∧ c' = c.modify l.tag ns f := by
  cases hl : given.read
  case error =>
    rw [addBundle, hl] at h
    cases h
  case ok l =>
    rw [addBundle_of_read hl] at h
    cases h
    exact ⟨l, _, rfl, rfl⟩

def Tagged (P : String → Prop) (c : Catalog) : Prop :=
  ∀ tag ns, (c.tree? tag ns).isSome → ∃ text l, P text ∧ Locale.parse text = .ok l ∧ l.tag = tag

theorem Tagged.modify {l : Locale} {text : String} (h : Tagged P c) (ht : P text)
    (hl : Locale.parse text = .ok l) (ns : String) (f : Members Value → Members Value) :
    Tagged P (c.modify l.tag ns f) := by
  intro tag ns' hs
  rw [tree?_modify] at hs
  split at hs
  case isTrue heq => exact ⟨text, l, ht, hl, heq.1⟩
  case isFalse => exact h tag ns' hs

theorem Spelled.tagged (h : Spelled P c) : Tagged P c := by
  induction h
  case empty =>
    intro tag ns hs
    cases hs
  case add ht hc ih =>
    obtain ⟨l, f, hl, rfl⟩ := exists_of_add hc
    exact ih.modify ht hl _ f
  case bundle ht hc ih =>
    obtain ⟨l, f, hl, rfl⟩ := exists_of_addBundle hc
    exact ih.modify ht hl _ f

theorem spelled_ofBundles {bundles : Members (Members (Members Value))}
    (h : (ofBundles bundles).outcome = .done c) : c.Spelled (· ∈ bundles.names) := by
  refine Run.Yields.foldlM .empty ?_ c h
  intro c hc (text, spaces) hm
  refine Run.Yields.foldlM hc ?_
  intro c hc (ns, source) _ c' hc'
  exact hc.bundle (List.mem_map_of_mem hm) hc'

end Catalog

namespace Locale

-- Only blank spellings are refused. The tag that comes of a spelling is not empty and names the
-- locale again, unless the spelling dangles. So each tag of a catalog leads back to its own
-- namespaces, as long as no spelling dangles under which something was written.
theorem tag_named_again_iff (text : String) :
    (parse text = .error .blankTag ↔ ∀ c ∈ text.toList, Text.isBlank c) ∧
    (parse text = .error .blankTag ∨ ∃ l, parse text = .ok l ∧
      (l.tag = "" ↔ Text.trimmed text.toList ∈ [['-'], ['_']]) ∧
      (l.tag ≠ "" ∧ parse l.tag = .ok l ↔ ¬ Dangling text)) ∧
    (∀ bundles c, (Catalog.ofBundles bundles).outcome = .done c →
      c.Spelled (· ∈ bundles.names)) ∧
    ∀ P (c : Catalog) tag ns, c.Spelled P → (c.tree? tag ns).isSome →
      ∃ text l, P text ∧ parse text = .ok l ∧ l.tag = tag ∧
        (¬ Dangling text → parse tag = .ok l ∧ c.hasNamespace (.tag tag) ns = .ok true ∧
          ∀ key v, c.add (.tag tag) ns key v = .ok (c.modify tag ns (·.put key v))) := by
  refine ⟨parse_eq_error_iff, ?again, fun _ _ => Catalog.spelled_ofBundles,
    fun P c tag ns hc ht => ?kept⟩
  case again =>
    refine (parse_eq_error_or text).imp_right fun ⟨l, hl⟩ => ⟨l, hl, tag_eq_empty_iff hl, ?_⟩
    rw [← parse_tag_iff hl, and_iff_right_iff_imp]
    intro hp he
    rw [he] at hp
    cases hp
  case kept =>
    obtain ⟨text, l, hP, hl, rfl⟩ := hc.tagged tag ns ht
    refine ⟨text, l, hP, hl, rfl, fun hd => ?_⟩
    have hread : (Given.tag l.tag).read = .ok l := (parse_tag_iff hl).2 hd
    refine ⟨hread, ?_, fun key v => Catalog.add_of_read hread v⟩
    simp only [Catalog.hasNamespace, hread, ← ht]
    rfl

theorem dresden_named_again :
    let bundles : Members (Members (Members Value)) :=
      [(" de_DE- ", [("talk", [("a", .text "A")])]), ("en-", [("talk", [("a", .text "B")])])]
    ∃ c, (Catalog.ofBundles bundles).outcome = .done c ∧ (c.tree? "de-DE-" "talk").isSome ∧
      (∀ text ∈ bundles.names, ¬ Dangling text) ∧
      c.hasNamespace (.tag "de-DE-") "talk" = .ok true ∧ Dangling "- " ∧ Dangling "x _" := by
  intro bundles
  have ⟨_, _, hspelled, hkept⟩ := tag_named_again_iff " de_DE- "
  have hiff {text : String} {l : Locale} (hl : parse text = .ok l) :
      l.tag ≠ "" ∧ parse l.tag = .ok l ↔ ¬ Dangling text := by
    rcases (tag_named_again_iff text).2.1 with he | ⟨l', hl', _, h⟩
    case inl => cases hl.symm.trans he
    case inr =>
      cases hl.symm.trans hl'
      exact h
  have hde : parse " de_DE- " = .ok ⟨"de", some "DE-"⟩ := rfl
  have hen : parse "en-" = .ok ⟨"en", none⟩ := rfl
  have hsound : ∀ text ∈ bundles.names, ¬ Dangling text :=
    List.forall_mem_cons.2 ⟨(hiff hde).1 ⟨by decide, rfl⟩,
      List.forall_mem_singleton.2 ((hiff hen).1 ⟨by decide, rfl⟩)⟩
  obtain ⟨c, hc, ht⟩ : ∃ c : Catalog, (Catalog.ofBundles bundles).outcome = .done c ∧
      (c.tree? "de-DE-" "talk").isSome := ⟨_, rfl, by decide +kernel⟩
  obtain ⟨text, _, hm, _, _, hread⟩ := hkept _ c "de-DE-" "talk" (hspelled bundles c hc) ht
  refine ⟨c, hc, ht, hsound, (hread (hsound text hm)).2.1, ?lone, ?behind⟩
  case lone =>
    have hl : parse "- " = .ok ⟨"", none⟩ := rfl
    exact not_not.1 (mt (hiff hl).2 fun h => h.1 rfl)
  case behind =>
    have hl : parse "x _" = .ok ⟨"x ", none⟩ := rfl
    have hne : (⟨"x", none⟩ : Locale) ≠ ⟨"x ", none⟩ := by decide
    exact not_not.1 (mt (hiff hl).2 fun h => hne (Except.ok.inj h.2))

theorem lone_dash_has_no_tag :
    (⟨"", none⟩ : Locale).tag = "" ∧ parse "-" = .ok ⟨"", none⟩ ∧ parse "" = .error .blankTag ∧
      parse "x -" = .ok ⟨"x ", none⟩ ∧ parse (⟨"x ", none⟩ : Locale).tag = .ok ⟨"x", none⟩ ∧
      ¬ ∀ text l, parse text = .ok l → l.tag ≠ "" ∧ parse l.tag = .ok l := by
  have h : parse "-" = .ok ⟨"", none⟩ := rfl
  exact ⟨rfl, h, rfl, rfl, rfl, fun hall => (hall _ _ h).1 rfl⟩

end Locale
end Phrasebook
