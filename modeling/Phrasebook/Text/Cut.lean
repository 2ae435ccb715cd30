namespace Phrasebook.Text

def after? : List Char → List Char → Option (List Char)
  | [], text => some text
  | _ :: _, [] => none
  | c :: front, d :: text => if c = d then after? front text else none

theorem after?_eq_some_iff {front text rest : List Char} :
    after? front text = some rest ↔ text = front ++ rest := by
  induction front generalizing text with
  | nil => simp [after?]
  | cons c front ih =>
    cases text with
    | nil => simp [after?]
    | cons d text =>
      by_cases h : c = d
      · simp [after?, h, ih]
      · simp [after?, h, Ne.symm h]

theorem after?_eq_none_iff {front text : List Char} :
    after? front text = none ↔ ¬ front <+: text := by
  rw [Option.eq_none_iff_forall_ne_some]
  constructor
  case mp =>
    rintro h ⟨rest, rfl⟩
    exact h rest (after?_eq_some_iff.2 rfl)
  case mpr =>
    intro h rest ha
    exact h ⟨rest, (after?_eq_some_iff.1 ha).symm⟩

theorem after?_eq_none_of_append {mark before rest : List Char}
    (h : after? mark (before ++ mark ++ rest) = none) (more : List Char) :
    after? mark (before ++ mark ++ more) = none := by
  rw [after?_eq_none_iff] at h ⊢
  intro hp
  have hb : mark <+: before ++ mark :=
    List.prefix_of_prefix_length_le hp (List.prefix_append ..) (by simp)
  exact h (hb.trans (List.prefix_append ..))

def cut? (mark : List Char) : List Char → Option (List Char × List Char)
  | [] => (after? mark []).map ([], ·)
  | c :: text =>
    match after? mark (c :: text) with
    | some rest => some ([], rest)
    | none => (cut? mark text).map fun (before, rest) => (c :: before, rest)

theorem eq_of_cut? {mark text before rest : List Char} (h : cut? mark text = some (before, rest)) :
    text = before ++ mark ++ rest := by
  induction text generalizing before with
  | nil =>
    have ⟨_, ha, heq⟩ := Option.map_eq_some_iff.1 h
    cases heq
    simpa using after?_eq_some_iff.1 ha
  | cons c text ih =>
    rw [cut?] at h
    split at h
    case h_1 ha =>
      cases h
      simpa using after?_eq_some_iff.1 ha
    case h_2 =>
      have ⟨⟨_, _⟩, hc, heq⟩ := Option.map_eq_some_iff.1 h
      cases heq
      simp [ih hc]

theorem cut?_of_after? {mark text rest : List Char} (h : after? mark text = some rest) :
    cut? mark text = some ([], rest) := by
  cases text with
  | nil => simp [cut?, h]
  | cons c text => simp [cut?, h]

theorem cut?_append {mark text before rest : List Char} (h : cut? mark text = some (before, rest))
    (more : List Char) : cut? mark (before ++ mark ++ more) = some (before, more) := by
  induction text generalizing before with
  | nil =>
    have ⟨_, _, heq⟩ := Option.map_eq_some_iff.1 h
    cases heq
    exact cut?_of_after? (after?_eq_some_iff.2 rfl)
  | cons c text ih =>
    rw [cut?] at h
    split at h
    case h_1 =>
      cases h
      exact cut?_of_after? (after?_eq_some_iff.2 rfl)
    case h_2 ha =>
      have ⟨⟨front, _⟩, hc, heq⟩ := Option.map_eq_some_iff.1 h
      cases heq
      rw [eq_of_cut? hc] at ha
      have ha₀ : after? mark ((c :: front) ++ mark ++ more) = none :=
        after?_eq_none_of_append ha more
      simp only [List.cons_append] at ha₀ ⊢
      simp only [cut?, ha₀, ih hc, Option.map_some]

theorem cut?_eq_none_iff {mark text : List Char} : cut? mark text = none ↔ ¬ mark <:+: text := by
  induction text with
  | nil => simp [cut?, after?_eq_none_iff]
  | cons c text ih =>
    rw [cut?, List.infix_cons_iff]
    cases ha : after? mark (c :: text) with
    | none => simp [ih, after?_eq_none_iff.1 ha]
    | some rest =>
      have hp : mark <+: c :: text := ⟨rest, (after?_eq_some_iff.1 ha).symm⟩
      simp [hp]

theorem length_le_of_cut? {mark text before rest front : List Char}
    (h : cut? mark text = some (before, rest)) (hp : front ++ mark <+: text) :
    before.length ≤ front.length := by
  induction text generalizing before front with
  | nil =>
    have ⟨_, _, heq⟩ := Option.map_eq_some_iff.1 h
    cases heq
    exact Nat.zero_le _
  | cons c text ih =>
    rw [cut?] at h
    split at h
    case h_1 =>
      cases h
      exact Nat.zero_le _
    case h_2 ha =>
      have ⟨⟨_, _⟩, hc, heq⟩ := Option.map_eq_some_iff.1 h
      cases heq
      cases front with
      | nil => exact absurd hp (after?_eq_none_iff.1 ha)
      | cons d front => exact Nat.succ_le_succ (ih hc (List.cons_prefix_cons.1 hp).2)

theorem cut?_of_first {mark before rest : List Char}
    (h : ∀ front, front ++ mark <+: before ++ mark ++ rest → before.length ≤ front.length) :
    cut? mark (before ++ mark ++ rest) = some (before, rest) := by
  cases hc : cut? mark (before ++ mark ++ rest) with
  | none => exact absurd ⟨before, rest, rfl⟩ (cut?_eq_none_iff.1 hc)
  | some p =>
    have heq := eq_of_cut? hc
    have hle := length_le_of_cut? hc (List.prefix_append (before ++ mark) rest)
    have hge := h p.1 ⟨p.2, heq.symm⟩
    simp only [List.append_assoc] at heq
    have ⟨hb, hr⟩ := List.append_inj heq (Nat.le_antisymm hge hle)
    rw [hb, List.append_cancel_left hr]

def First (mark before rest : List Char) : Prop :=
  ∀ front, front ++ mark <+: before ++ mark ++ rest → before.length ≤ front.length

theorem cut?_eq_some_iff {mark text before rest : List Char} :
    cut? mark text = some (before, rest) ↔
      text = before ++ mark ++ rest ∧ First mark before rest := by
  constructor
  case mp =>
    intro h
    have ht := eq_of_cut? h
    exact ⟨ht, fun _ hp => length_le_of_cut? h (ht ▸ hp)⟩
  case mpr =>
    rintro ⟨rfl, h⟩
    exact cut?_of_first h

-- No mark can begin in the text before and end in the mark if its first character is not repeated
-- in it.
theorem first_of_absent {c : Char} {mark before rest : List Char} (hc : c ∉ mark)
    (h : ¬ c :: mark <:+: before) : First (c :: mark) before rest := by
  intro front hp
  refine Nat.le_of_not_lt fun hlt => ?_
  have hb : front <+: before :=
    List.prefix_of_prefix_length_le ((List.prefix_append ..).trans hp)
      ((List.prefix_append ..).trans (List.prefix_append ..)) (Nat.le_of_lt hlt)
  obtain ⟨more, rfl⟩ := hb
  rw [List.append_assoc front, List.append_assoc front, List.prefix_append_right_inj] at hp
  cases more
  case nil => simp at hlt
  case cons d more =>
    simp only [List.append_assoc, List.cons_append, List.cons_prefix_cons] at hp
    obtain ⟨rfl, hp⟩ := hp
    rcases Nat.lt_or_ge more.length mark.length with hlt | hle
    case inl =>
      have hm : more ++ [c] <+: mark :=
        List.prefix_of_prefix_length_le (by simp) hp (by simpa using Nat.succ_le_of_lt hlt)
      exact hc (hm.subset (by simp))
    case inr =>
      have hm : mark <+: more := List.prefix_of_prefix_length_le hp (List.prefix_append ..) hle
      exact h ((List.cons_prefix_cons.2 ⟨rfl, hm⟩).isInfix.trans (List.suffix_append ..).isInfix)

inductive Cut (mark : List Char) : List Char → List Char → List Char → Prop
  | first {before rest : List Char} (h : First mark before rest) :
      Cut mark (before ++ mark ++ rest) before rest
  | absent {text : List Char} (h : ¬ mark <:+: text) : Cut mark text text []

theorem cut_iff {mark text before rest : List Char} :
    Cut mark text before rest ↔ (cut? mark text).getD (text, []) = (before, rest) := by
  constructor
  case mp =>
    intro h
    cases h
    case first h => rw [cut?_of_first h, Option.getD_some]
    case absent h => rw [cut?_eq_none_iff.2 h, Option.getD_none]
  case mpr =>
    intro h
    cases hc : cut? mark text <;> rw [hc] at h <;> cases h
    case none => exact .absent (cut?_eq_none_iff.1 hc)
    case some =>
      have ⟨ht, hf⟩ := cut?_eq_some_iff.1 hc
      subst ht
      exact .first hf

theorem length_lt_of_cut? {mark text before rest : List Char} (hm : mark ≠ [])
    (h : cut? mark text = some (before, rest)) : rest.length < text.length := by
  have := List.length_pos_iff.2 hm
  simp only [eq_of_cut? h, List.length_append]
  omega

-- The parts between the occurrences of a mark. An empty mark separates nothing.
def parts (mark text : List Char) : List (List Char) :=
  if hm : mark = [] then [text] else
    match h : cut? mark text with
    | some (before, rest) =>
      have := length_lt_of_cut? hm h
      before :: parts mark rest
    | none => [text]
termination_by text.length

end Phrasebook.Text
