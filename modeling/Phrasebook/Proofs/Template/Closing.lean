import Phrasebook.Template.Nesting

namespace Phrasebook.Template.Nesting

def reached (n : Nesting) (front : List Char) : Nesting :=
  front.foldl step n

-- Behind the front of a text there is a closing mark that is outside of everything and does not
-- begin with a quotation mark or an opening bracket.
structure Closes (closing : List Char) (n : Nesting) (text front : List Char) : Prop where
  occurs : front ++ closing <+: text
  outside : n.reached front = {}
  may_close : ∀ c ∈ closing.head?, c ∉ ['"', '\x7b', '[']

variable {closing text front content rest : List Char} {n : Nesting} {c d : Char}

theorem mayClose_iff : n.mayClose c ↔ n = {} ∧ c ∉ ['"', '\x7b', '['] := by
  simp [mayClose, and_assoc]

theorem closes_nil_iff :
    Closes (d :: closing) n (c :: text) [] ↔
      (if n.mayClose c then Text.after? (d :: closing) (c :: text) else none).isSome := by
  constructor
  case mp =>
    rintro ⟨⟨rest, ho⟩, hn, hm⟩
    obtain ⟨rfl, -⟩ := List.cons.inj ho
    have hmay : n.mayClose d := mayClose_iff.2 ⟨hn, hm d rfl⟩
    have ha : Text.after? (d :: closing) (d :: text) = some rest :=
      Text.after?_eq_some_iff.2 ho.symm
    rw [if_pos hmay, ha]
    rfl
  case mpr =>
    intro h
    split at h
    case isFalse => cases h
    case isTrue hmay =>
      obtain ⟨rest, ha⟩ := Option.isSome_iff_exists.1 h
      have ho := Text.after?_eq_some_iff.1 ha
      obtain ⟨rfl, -⟩ := List.cons.inj ho
      obtain ⟨hn, hc⟩ := mayClose_iff.1 hmay
      exact ⟨⟨rest, ho.symm⟩, hn, by rintro _ ⟨rfl⟩; exact hc⟩

theorem closes_cons_iff :
    Closes closing n (c :: text) (d :: front) ↔ d = c ∧ Closes closing (n.step c) text front := by
  constructor
  case mp =>
    rintro ⟨ho, hn, hm⟩
    rw [List.cons_append, List.cons_prefix_cons] at ho
    obtain ⟨rfl, ho⟩ := ho
    exact ⟨rfl, ho, hn, hm⟩
  case mpr =>
    rintro ⟨rfl, ho, hn, hm⟩
    exact ⟨List.cons_prefix_cons.2 ⟨rfl, ho⟩, hn, hm⟩

theorem close?_of_closes_nil (h : Closes (d :: closing) n (c :: text) []) :
    ∃ rest, close? (d :: closing) n (c :: text) = some ([], rest) := by
  obtain ⟨rest, ha⟩ := Option.isSome_iff_exists.1 (closes_nil_iff.1 h)
  exact ⟨rest, by rw [close?, ha]⟩

theorem close?_of_not_closes_nil (h : ¬ Closes (d :: closing) n (c :: text) []) :
    close? (d :: closing) n (c :: text) =
      (close? (d :: closing) (n.step c) text).map fun (content, rest) => (c :: content, rest) := by
  rw [closes_nil_iff, Bool.not_eq_true, Option.isSome_eq_false_iff, Option.isNone_iff_eq_none] at h
  rw [close?, h]

theorem close?_eq_none_iff (hne : closing ≠ []) :
    close? closing n text = none ↔ ∀ front, ¬ Closes closing n text front := by
  obtain ⟨d, closing, rfl⟩ := List.exists_cons_of_ne_nil hne
  induction text generalizing n
  case nil =>
    refine iff_of_true rfl fun front h => ?_
    have hl := h.occurs.length_le
    simp at hl
  case cons c text ih =>
    by_cases h : Closes (d :: closing) n (c :: text) []
    case pos =>
      obtain ⟨rest, hc⟩ := close?_of_closes_nil h
      exact iff_of_false (by simp [hc]) fun hall => hall [] h
    case neg =>
      rw [close?_of_not_closes_nil h, Option.map_eq_none_iff, ih]
      constructor
      case mp =>
        rintro hall (_ | ⟨_, front⟩)
        case nil => exact h
        case cons => exact fun hf => hall front (closes_cons_iff.1 hf).2
      case mpr => exact fun hall front hf => hall (c :: front) (closes_cons_iff.2 ⟨rfl, hf⟩)

theorem closes_of_close? (hne : closing ≠ []) (h : close? closing n text = some (content, rest)) :
    Closes closing n text content ∧
      ∀ front, Closes closing n text front → content.length ≤ front.length := by
  obtain ⟨d, closing, rfl⟩ := List.exists_cons_of_ne_nil hne
  induction text generalizing n content
  case nil => cases h
  case cons c text ih =>
    by_cases h₀ : Closes (d :: closing) n (c :: text) []
    case pos =>
      obtain ⟨_, hc⟩ := close?_of_closes_nil h₀
      cases h.symm.trans hc
      exact ⟨h₀, fun _ _ => Nat.zero_le _⟩
    case neg =>
      rw [close?_of_not_closes_nil h₀] at h
      obtain ⟨⟨more, _⟩, hc, heq⟩ := Option.map_eq_some_iff.1 h
      cases heq
      have ⟨hmore, hfirst⟩ := ih hc
      refine ⟨closes_cons_iff.2 ⟨rfl, hmore⟩, ?_⟩
      rintro (_ | ⟨_, front⟩) hf
      case nil => exact absurd hf h₀
      case cons => exact Nat.succ_le_succ (hfirst front (closes_cons_iff.1 hf).2)

theorem close?_eq_some_iff (hne : closing ≠ []) :
    close? closing n text = some (content, rest) ↔
      text = content ++ closing ++ rest ∧ Closes closing n text content ∧
        ∀ front, Closes closing n text front → content.length ≤ front.length := by
  constructor
  case mp => exact fun h => ⟨eq_of_close? h, closes_of_close? hne h⟩
  case mpr =>
    rintro ⟨ht, hc, hfirst⟩
    cases hclose : close? closing n text
    case none => exact absurd hc ((close?_eq_none_iff hne).1 hclose content)
    case some p =>
      obtain ⟨hp, hpfirst⟩ := closes_of_close? hne hclose
      have hl : content.length = p.1.length :=
        Nat.le_antisymm (hfirst p.1 hp) (hpfirst content hc)
      have heq := ht.symm.trans (eq_of_close? hclose)
      simp only [List.append_assoc] at heq
      obtain ⟨rfl, hr⟩ := List.append_inj heq hl
      rw [List.append_cancel_left hr]

end Phrasebook.Template.Nesting
