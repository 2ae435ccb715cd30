import Phrasebook.Key

namespace Phrasebook

variable {mark text before rest ns separator path : String}

namespace Text

theorem split?_of_cut? {mark text : String} {before rest : List Char} (hm : mark ≠ "")
    (h : cut? mark.toList text.toList = some (before, rest)) :
    split? (some mark) text = some (String.ofList before, String.ofList rest) := by
  have hp : present? (some mark) text = some mark := Option.filter_some_pos (by simp [hm, h])
  simp only [split?, hp, Option.bind_some, h, Option.map_some]

theorem split?_eq_some_iff :
    split? (some mark) text = some (before, rest) ↔
      mark ≠ "" ∧ cut? mark.toList text.toList = some (before.toList, rest.toList) := by
  constructor
  case mp =>
    intro h
    obtain ⟨m, hp, hm⟩ := Option.bind_eq_some_iff.1 h
    obtain ⟨⟨b, r⟩, hc, heq⟩ := Option.map_eq_some_iff.1 hm
    obtain ⟨hmark, hn⟩ := Option.filter_eq_some_iff.1 hp
    cases hmark
    cases heq
    have hn : mark ≠ "" := by
      rintro rfl
      simp at hn
    exact ⟨hn, by simpa using hc⟩
  case mpr =>
    rintro ⟨hn, hc⟩
    simpa using split?_of_cut? hn hc

theorem split?_of_absent (h : ¬ mark.toList <:+: text.toList) : split? (some mark) text = none := by
  refine Option.eq_none_iff_forall_ne_some.2 fun ⟨b, r⟩ hs => ?_
  have hc := (split?_eq_some_iff.1 hs).2
  exact h ⟨_, _, (eq_of_cut? hc).symm⟩

end Text

namespace Key

theorem parse_of_first {ns separator key : String} (hs : separator ≠ "")
    (hf : ∀ front, front ++ separator.toList <+: (ns ++ separator ++ key).toList →
      ns.length ≤ front.length) :
    Key.parse (ns ++ separator ++ key) (some separator) = ⟨some ns, key, separator⟩ := by
  have hc : Text.cut? separator.toList (ns ++ separator ++ key).toList =
      some (ns.toList, key.toList) := by
    simp only [String.toList_append] at hf ⊢
    exact Text.cut?_of_first hf
  simp only [Key.parse, Text.split?_of_cut? hs hc, String.ofList_toList]

theorem parse_of_absent (h : ¬ separator.toList <:+: path.toList) :
    parse path (some separator) = { ns := none, path } := by
  simp only [parse, Text.split?_of_absent h]

theorem split?_of_parse {raw : String} (h : (parse raw (some separator)).ns = some ns) :
    Text.split? (some separator) raw = some (ns, (parse raw (some separator)).path) := by
  cases hs : Text.split? (some separator) raw
  case none =>
    simp only [parse, hs] at h
    cases h
  case some p =>
    simp only [parse, hs] at h ⊢
    cases h
    rfl

theorem text_parse (raw : String) (separator : Option String) :
    (parse raw separator).text = raw := by
  cases separator
  case none => rfl
  case some separator =>
    cases hs : Text.split? (some separator) raw
    case none => simp only [parse, hs, text]
    case some p =>
      have hc := Text.eq_of_cut? (Text.split?_eq_some_iff.1 hs).2
      rw [← String.toList_append, ← String.toList_append, String.toList_inj] at hc
      simp only [parse, hs, text, ← hc]

theorem parse_qualified_iff (hs : separator ≠ "") :
    (parse (ns ++ separator ++ path) (some separator)).ns = some ns ∧
      (parse (ns ++ separator ++ path) (some separator)).path = path ↔
        Text.First separator.toList ns.toList path.toList := by
  constructor
  case mp =>
    rintro ⟨hn, hp⟩
    have hsplit := split?_of_parse hn
    rw [hp] at hsplit
    have hc := (Text.split?_eq_some_iff.1 hsplit).2
    exact (Text.cut?_eq_some_iff.1 hc).2
  case mpr =>
    intro hf
    have hp : parse (ns ++ separator ++ path) (some separator) = ⟨some ns, path, separator⟩ :=
      parse_of_first hs <| by
        simpa only [String.toList_append, String.length_toList, Text.First] using hf
    rw [hp]
    exact ⟨rfl, rfl⟩

end Key
end Phrasebook
