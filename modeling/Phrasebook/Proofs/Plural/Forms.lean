import Mathlib.Tactic.SplitIfs
import Phrasebook.Candidates
import Phrasebook.Plural.Builtin

namespace Phrasebook.Plural

variable {ι : Type} {r : Rule} {o : Options ι}

theorem toDigits_inj {m n : Nat} : Nat.toDigits 10 m = Nat.toDigits 10 n ↔ m = n := by
  refine ⟨fun h => ?_, congrArg _⟩
  have hd := congrArg (Nat.ofDigitChars 10 · 0) h
  simpa only [Nat.ofDigitChars_ten_toDigits] using hd

theorem toDigits_ne_minus_cons {n : Nat} {text : List Char} : Nat.toDigits 10 n ≠ '-' :: text := by
  intro h
  have hm : '-' ∈ Nat.toDigits 10 n := h ▸ List.mem_cons_self
  cases Nat.isDigit_of_mem_toDigits (by decide) (by decide) hm

theorem toString_inj {m n : Int} : toString m = toString n ↔ m = n := by
  refine ⟨fun h => ?_, congrArg _⟩
  have h : m.repr.toList = n.repr.toList := congrArg String.toList h
  cases m <;> cases n <;>
    simp only [Int.repr, String.toList_append, Nat.toList_repr] at h
  case ofNat.ofNat => exact congrArg Int.ofNat (toDigits_inj.1 h)
  case ofNat.negSucc => exact absurd h toDigits_ne_minus_cons
  case negSucc.ofNat => exact absurd h.symm toDigits_ne_minus_cons
  case negSucc.negSucc =>
    have hd := toDigits_inj.1 (List.append_cancel_left h)
    exact congrArg Int.negSucc (Nat.succ.inj hd)

namespace Rule

structure Exact (r : Rule) : Prop where
  unsigned : r.signed = false
  total (n : Int) : 0 ≤ r.form n ∧ r.form n < r.numbers.length
  sampled (i : Nat) (h : i < r.numbers.length) : r.formOf r.numbers[i] = i

def suffixes (r : Rule) (o : Options ι) : List String :=
  let separator := o.pluralSeparator.textOr ""
  if r.numbers.length = 1 then [""]
  else if r.isSimple then ["", separator ++ o.pluralSuffix.textOr "plural"]
  else (List.range r.numbers.length).map fun i => separator ++ toString i

theorem length_of_isSimple (h : r.isSimple) : r.numbers.length = 2 := by
  simpa using ((Bool.and_eq_true _ _).mp h).1

theorem suffix_of_single (h : r.numbers.length = 1) (n : Int) : r.suffix n o = "" :=
  if_pos h

theorem suffix_of_simple (h : r.isSimple) (n : Int) :
    r.suffix n o = if r.formOf n = 0 then ""
      else o.pluralSeparator.textOr "" ++ o.pluralSuffix.textOr "plural" := by
  have h₁ : ¬ r.numbers.length = 1 := by rw [length_of_isSimple h]; decide
  simp only [suffix, if_neg h₁, if_pos h]

theorem suffix_of_numbered (h₁ : r.numbers.length ≠ 1) (h : ¬ r.isSimple) (n : Int) :
    r.suffix n o = o.pluralSeparator.textOr "" ++ toString (r.formOf n) := by
  simp only [suffix, if_neg h₁, if_neg h]

theorem pluralSuffix_ne_empty (separator : String) :
    separator ++ o.pluralSuffix.textOr "plural" ≠ "" := by
  intro h
  exact Setting.textOr_ne_empty (by decide) _ (String.append_eq_empty_iff.1 h).2

theorem suffix_eq_iff_of_simple (h : r.isSimple) (m n : Int) :
    r.suffix m o = r.suffix n o ↔ (r.formOf m = 0 ↔ r.formOf n = 0) := by
  have hne := pluralSuffix_ne_empty (o := o) (o.pluralSeparator.textOr "")
  rw [suffix_of_simple h, suffix_of_simple h]
  split_ifs with hm hn hn <;> simp [hm, hn, hne, hne.symm]

theorem suffix_eq_iff_of_numbered (h₁ : r.numbers.length ≠ 1) (h : ¬ r.isSimple) (m n : Int) :
    r.suffix m o = r.suffix n o ↔ r.formOf m = r.formOf n := by
  rw [suffix_of_numbered h₁ h, suffix_of_numbered h₁ h, String.append_right_inj, toString_inj]

namespace Exact

theorem suffix_neg (h : r.Exact) (n : Int) : r.suffix (-n) o = r.suffix n o := by
  have hf : r.formOf (-n) = r.formOf n := by simp [formOf, h.unsigned]
  simp only [suffix, hf]

theorem formOf_bounds (h : r.Exact) (n : Int) : 0 ≤ r.formOf n ∧ r.formOf n < r.numbers.length :=
  h.total _

theorem exists_formOf_eq_iff (h : r.Exact) (i : Int) :
    (∃ n, r.formOf n = i) ↔ 0 ≤ i ∧ i < r.numbers.length := by
  constructor
  case mp =>
    rintro ⟨n, rfl⟩
    exact h.formOf_bounds n
  case mpr =>
    rintro ⟨hi, hlt⟩
    obtain ⟨i, rfl⟩ := Int.eq_ofNat_of_zero_le hi
    exact ⟨_, h.sampled i (by omega)⟩

theorem exists_suffix_eq_iff (h : r.Exact) (s : String) :
    (∃ n, r.suffix n o = s) ↔ s ∈ r.suffixes o := by
  by_cases h₁ : r.numbers.length = 1
  case pos => simp [suffix_of_single h₁, suffixes, h₁, eq_comm]
  by_cases hs : r.isSimple
  case pos =>
    have hl := length_of_isSimple hs
    have hzero : ∃ n, r.formOf n = 0 := (h.exists_formOf_eq_iff 0).2 (by omega)
    have hone : ∃ n, ¬ r.formOf n = 0 := by
      obtain ⟨n, hn⟩ := (h.exists_formOf_eq_iff 1).2 (by omega)
      exact ⟨n, by omega⟩
    simp only [suffix_of_simple hs, suffixes, if_neg h₁, if_pos hs, List.mem_cons,
      List.not_mem_nil, or_false]
    constructor
    case mp =>
      rintro ⟨n, rfl⟩
      split
      case isTrue => exact .inl rfl
      case isFalse => exact .inr rfl
    case mpr =>
      rintro (rfl | rfl)
      case inl => exact hzero.imp fun n hn => if_pos hn
      case inr => exact hone.imp fun n hn => if_neg hn
  case neg =>
    simp only [suffix_of_numbered h₁ hs, suffixes, if_neg h₁, if_neg hs, List.mem_map,
      List.mem_range]
    constructor
    case mp =>
      rintro ⟨n, rfl⟩
      obtain ⟨i, hi⟩ := Int.eq_ofNat_of_zero_le (h.formOf_bounds n).1
      have hlt := (h.formOf_bounds n).2
      exact ⟨i, by omega, by rw [hi]; rfl⟩
    case mpr =>
      rintro ⟨i, hi, rfl⟩
      exact ⟨_, by rw [h.sampled i hi]; rfl⟩

end Exact
end Rule

namespace Builtin

theorem sampled_of_mem : ∀ group ∈ groups, group.2.signed = false ∧
    ∀ i (h : i < group.2.numbers.length), group.2.formOf group.2.numbers[i] = i := by
  decide

theorem total_of_mem : ∀ group ∈ groups, ∀ n,
    0 ≤ group.2.form n ∧ group.2.form n < group.2.numbers.length := by
  intro group hg n
  simp only [groups, List.mem_cons, List.not_mem_nil, or_false] at hg
  rcases hg with rfl | rfl | rfl | rfl | rfl | rfl | rfl | rfl | rfl | rfl
  case inr.inr.inl => exact ⟨Int.le_refl 0, Int.one_pos⟩
  -- What the conditions ask of a count matters only for a rule whose form may be the count itself.
  all_goals
    simp only [aboveOne, notOne, slavic, arabic, czech, polish, icelandic, lithuanian, latvian,
      List.length_cons, List.length_nil]
    split_ifs <;> omega

theorem exact_of_mem {code : String} (h : (code, r) ∈ rules) : r.Exact := by
  obtain ⟨group, hg, hr⟩ := List.mem_flatMap.1 h
  obtain ⟨_, _, heq⟩ := List.mem_map.1 hr
  cases heq
  have ⟨hs, hi⟩ := sampled_of_mem group hg
  exact ⟨hs, total_of_mem group hg, hi⟩

theorem nodup_names_rules : (Members.names rules).Nodup := by
  decide +kernel

theorem rule?_of_mem {code : String} {l : Locale} (h : (code, r) ∈ rules)
    (hl : l.tag = code ∨ l.tag ∉ Members.names rules ∧ l.language = code) :
    Rulebook.rule? rules l = some r := by
  have hr : Members.get? rules code = some r := Members.get?_of_mem nodup_names_rules h
  rcases hl with rfl | ⟨ht, rfl⟩
  case inl => rw [Rulebook.rule?, hr]; rfl
  case inr => rw [Rulebook.rule?, Members.get?_eq_none_iff.2 ht, hr]; rfl

end Builtin

theorem outcome_pluralSuffix {site : Site ι} (h : site.host.rules.rule? site.locale = some r)
    (n : Int) : (site.pluralSuffix n).outcome = .done (r.suffix n site.options) := by
  rw [Site.pluralSuffix, h]
  rfl

-- The suffixes of a language are just those of its forms, each of which some count has, and the
-- sign of a count does not matter. Two counts have one suffix only if they have one form, whatever
-- the rule and however suffixes are separated and spelled.
theorem suffixes_tell_forms (o : Options ι) :
    (∀ (site : Site ι) rule, site.options = o → site.host.rules.rule? site.locale = some rule →
      ∀ n, (site.pluralSuffix n).outcome = .done (rule.suffix n o)) ∧
    (∀ code rule, (code, rule) ∈ Builtin.rules →
      (∀ l : Locale, l.tag = code ∨ l.tag ∉ Members.names Builtin.rules ∧ l.language = code →
        Builtin.rules.rule? l = some rule) ∧
      (∀ n, 0 ≤ rule.form n ∧ rule.form n < rule.numbers.length) ∧
      (∀ i (h : i < rule.numbers.length), rule.formOf rule.numbers[i] = i) ∧
      (∀ n, rule.suffix (-n) o = rule.suffix n o) ∧
      ∀ s, (∃ n, rule.suffix n o = s) ↔ s ∈ rule.suffixes o) ∧
    ∀ rule : Rule, 1 < rule.numbers.length → ∀ m n,
      (rule.suffix m o = rule.suffix n o ↔
        if rule.isSimple then rule.formOf m = 0 ↔ rule.formOf n = 0
        else rule.formOf m = rule.formOf n) := by
  refine ⟨?resolved, ?exact, ?told⟩
  case resolved =>
    rintro site rule rfl hr n
    exact outcome_pluralSuffix hr n
  case exact =>
    intro code rule h
    have he := Builtin.exact_of_mem h
    exact ⟨fun l hl => Builtin.rule?_of_mem h hl, he.total, he.sampled, he.suffix_neg,
      he.exists_suffix_eq_iff⟩
  case told =>
    intro rule hn m n
    split
    case isTrue hs => exact Rule.suffix_eq_iff_of_simple hs m n
    case isFalse hs => exact Rule.suffix_eq_iff_of_numbered (by omega) hs m n

theorem lithuanian_forms_told :
    let o : Options Empty := { pluralSeparator := .set "_", pluralSuffix := .set "" }
    let bySign : Rule := { numbers := [-1, 0, 1], form := Int.sign, signed := true }
    (∀ s, (∃ n, Builtin.lithuanian.suffix n o = s) ↔ s ∈ ["_0", "_1", "_2"]) ∧
      Builtin.lithuanian.suffix (-21) o = Builtin.lithuanian.suffix 21 o ∧
      Builtin.rules.rule? ⟨"lt", some "LT"⟩ = some Builtin.lithuanian ∧
      bySign.suffix (-3) o ≠ bySign.suffix 3 o := by
  intro o bySign
  have ⟨_, hexact, htold⟩ := suffixes_tell_forms o
  have hmem : ("lt", Builtin.lithuanian) ∈ Builtin.rules :=
    List.mem_flatMap.2 ⟨(["lt"], Builtin.lithuanian), by simp [Builtin.groups], by simp⟩
  have ⟨hrule, _, _, hneg, hrange⟩ := hexact _ _ hmem
  have htag : "lt-LT" ∉ Members.names Builtin.rules := by decide +kernel
  refine ⟨hrange, hneg 21, hrule _ (.inr ⟨htag, rfl⟩), fun h => ?_⟩
  exact absurd ((htold bySign (by decide) _ _).1 h) (by decide)

end Phrasebook.Plural
