import Phrasebook.Text.Cut

namespace Phrasebook.Text

variable {c : Char} {mark before rest text part : List Char}

theorem cut?_of_not_mem (h : c ∉ before) :
    cut? (c :: mark) (before ++ (c :: mark) ++ rest) = some (before, rest) := by
  induction before
  case nil => exact cut?_of_after? (after?_eq_some_iff.2 rfl)
  case cons d before ih =>
    have hd := List.ne_of_not_mem_cons h
    have hb := List.not_mem_of_not_mem_cons h
    have ha : after? (c :: mark) (d :: (before ++ (c :: mark) ++ rest)) = none := if_neg hd
    simp only [List.cons_append] at ih ha ⊢
    simp only [cut?, ha, ih hb, Option.map_some]

theorem not_mem_of_cut? (h : cut? [c] text = some (before, rest)) : c ∉ before := by
  intro hm
  obtain ⟨front, more, rfl⟩ := List.append_of_mem hm
  have hp : front ++ [c] <+: text := ⟨more ++ [c] ++ rest, by simp [eq_of_cut? h]⟩
  have hle := length_le_of_cut? h hp
  simp only [List.length_append, List.length_cons] at hle
  omega

theorem cut?_eq_none_of_not_mem (h : c ∉ text) : cut? (c :: mark) text = none :=
  cut?_eq_none_iff.2 fun hi => h (hi.subset List.mem_cons_self)

theorem infix_of_infix_append (hc : c ∉ part) (h : c :: mark <:+: part ++ text) :
    c :: mark <:+: text := by
  induction part
  case nil => exact h
  case cons d part ih =>
    have hd := List.ne_of_not_mem_cons hc
    have hp := List.not_mem_of_not_mem_cons hc
    rcases List.infix_cons_iff.1 h with h | h
    case inl => exact absurd (List.cons_prefix_cons.1 h).1 hd
    case inr => exact ih hp h

theorem infix_of_append_infix (hc : c ∉ part) (h : mark ++ [c] <:+: text ++ part) :
    mark ++ [c] <:+: text := by
  rw [← List.reverse_infix, List.reverse_append, List.reverse_append] at h
  have h := infix_of_infix_append (by simpa using hc) h
  rwa [← List.reverse_infix, List.reverse_append]

end Phrasebook.Text
