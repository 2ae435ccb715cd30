import Phrasebook.Template.Split

namespace Phrasebook.Template

namespace Split

def TokenAt (m : Marking) (s : Split) (front content : List Char) : Prop :=
  ∃ before gap after, s.marked = before ++ (gap, content) :: after ∧ front = text m ⟨before, gap⟩

variable {m : Marking} {marked marked' : List (List Char × List Char)}
  {p : List Char × List Char} {tail front content : List Char}

theorem text_append :
    text m ⟨marked ++ marked', tail⟩ = text m ⟨marked, []⟩ ++ text m ⟨marked', tail⟩ := by
  induction marked
  case nil => rfl
  case cons p marked ih => simp [text_cons, ih]

theorem text_eq_append (marked : List (List Char × List Char)) (tail : List Char) :
    text m ⟨marked, tail⟩ = text m ⟨marked, []⟩ ++ tail := by
  have h : text m ⟨marked ++ [], tail⟩ = text m ⟨marked, []⟩ ++ text m ⟨[], tail⟩ := text_append
  rwa [List.append_nil, text_nil] at h

theorem tokenAt_cons_iff :
    TokenAt m ⟨p :: marked, tail⟩ front content ↔
      (front = p.1 ∧ content = p.2) ∨
      ∃ front', front = p.1 ++ m.token p.2 ++ front' ∧
        TokenAt m ⟨marked, tail⟩ front' content := by
  constructor
  case mp =>
    rintro ⟨before, gap, after, hm, rfl⟩
    cases before
    case nil =>
      have ⟨hp, _⟩ := List.cons.inj hm
      exact .inl ⟨hp ▸ rfl, hp ▸ rfl⟩
    case cons q before =>
      have ⟨hp, hm'⟩ := List.cons.inj hm
      exact .inr ⟨_, hp ▸ text_cons, before, gap, after, hm', rfl⟩
  case mpr =>
    rintro (⟨rfl, rfl⟩ | ⟨_, rfl, before, gap, after, hm, rfl⟩)
    case inl => exact ⟨[], p.1, marked, rfl, rfl⟩
    case inr => exact ⟨p :: before, gap, after, congrArg (p :: ·) hm, rfl⟩

theorem TokenAt.mem_marked {s : Split} (h : s.TokenAt m front content) :
    ∃ gap, (gap, content) ∈ s.marked := by
  have ⟨before, gap, after, hm, _⟩ := h
  exact ⟨gap, hm ▸ List.mem_append_right before List.mem_cons_self⟩

theorem tokenAt_append_iff :
    TokenAt m ⟨marked ++ marked', tail⟩ front content ↔
      TokenAt m ⟨marked, []⟩ front content ∨
      ∃ front', front = text m ⟨marked, []⟩ ++ front' ∧
        TokenAt m ⟨marked', tail⟩ front' content := by
  induction marked generalizing front
  case nil =>
    have hn : ¬ TokenAt m ⟨[], []⟩ front content := by simp [TokenAt]
    simp [text, hn]
  case cons p marked ih =>
    rw [List.cons_append, tokenAt_cons_iff, tokenAt_cons_iff, text_cons]
    simp only [ih]
    grind

theorem prefix_text_of_tokenAt {s : Split} (h : s.TokenAt m front content) :
    front ++ m.token content <+: s.text m := by
  obtain ⟨marked, tail⟩ := s
  obtain ⟨before, gap, after, rfl, rfl⟩ := h
  refine ⟨text m ⟨after, tail⟩, ?_⟩
  simp [text_eq_append before gap, text_append, text_cons]

end Split

namespace Marking

open Split

variable (m : Marking) {gap content rest text : List Char}

def Reads (gap content : List Char) : Prop :=
  ∀ rest, m.split (gap ++ m.token content ++ rest) =
    ⟨(gap, content) :: (m.split rest).marked, (m.split rest).tail⟩

-- A scan of the gap and the marked part behind it ends in just this part. The gap may hold other
-- marked parts, but none that begins in it reaches beyond it.
def Keeps (gap content : List Char) : Prop :=
  ∃ before g, m.split (gap ++ m.token content) = ⟨before ++ [(g, content)], []⟩

variable {m}

theorem split_of_close {body : List Char} (ho : Text.cut? m.opening text = some (gap, body))
    (hc : m.close body = some (content, rest)) :
    m.split text = ⟨(gap, content) :: (m.split rest).marked, (m.split rest).tail⟩ := by
  fun_cases m.split text
  case case1 ho' => cases ho.symm.trans ho'
  case case2 ho' hc' =>
    cases ho.symm.trans ho'
    cases hc.symm.trans hc'
  case case3 ho' _ _ hc' _ _ =>
    cases ho.symm.trans ho'
    cases hc.symm.trans hc'
    rfl

theorem split_nil : m.split [] = ⟨[], []⟩ := by
  have ht := m.text_split []
  cases hs : m.split []
  case mk marked tail =>
    rw [hs] at ht
    cases marked
    case nil => rw [← ht, text_nil]
    case cons p marked => simp [text_cons, token, m.closing_ne] at ht

theorem split_of_cut?_eq_none (h : Text.cut? m.opening text = none) :
    m.split text = ⟨[], text⟩ := by
  fun_cases m.split text
  case case1 => rfl
  case case2 ho _ => cases h.symm.trans ho
  case case3 ho _ _ _ _ _ => cases h.symm.trans ho

theorem split_of_close_eq_none {body : List Char}
    (ho : Text.cut? m.opening text = some (gap, body)) (hc : m.close body = none) :
    m.split text = ⟨[], text⟩ := by
  fun_cases m.split text
  case case1 => rfl
  case case2 => rfl
  case case3 ho' _ _ hc' _ _ =>
    cases ho.symm.trans ho'
    cases hc.symm.trans hc'

theorem length_marked_le (m : Marking) (text : List Char) :
    (m.split text).marked.length ≤ text.length := by
  fun_induction m.split text
  case case1 => exact Nat.zero_le _
  case case2 => exact Nat.zero_le _
  case case3 ih => exact Nat.succ_le_of_lt (Nat.lt_of_le_of_lt ih ‹_›)

theorem reads_of_mem {p : List Char × List Char} (h : p ∈ (m.split text).marked) :
    m.Reads p.1 p.2 := by
  fun_induction m.split text
  case case1 => cases h
  case case2 => cases h
  case case3 text gap body ho content rest hc _ s ih =>
    rcases List.mem_cons.1 h with rfl | h
    case inr => exact ih h
    case inl =>
      intro more
      refine split_of_close ?_ (m.close_append hc more)
      simpa [token] using Text.cut?_append ho (content ++ m.closing ++ more)

theorem close_of_mem {p : List Char × List Char} (h : p ∈ (m.split text).marked)
    (more : List Char) : m.close (p.2 ++ m.closing ++ more) = some (p.2, more) := by
  fun_induction m.split text
  case case1 => cases h
  case case2 => cases h
  case case3 text gap body ho content rest hc _ s ih =>
    rcases List.mem_cons.1 h with rfl | h
    case inl => exact m.close_append hc more
    case inr => exact ih h

theorem split_append_of_reads {marked : List (List Char × List Char)}
    (h : ∀ p ∈ marked, m.Reads p.1 p.2) (rest : List Char) :
    m.split (Split.text m ⟨marked, []⟩ ++ rest) =
      ⟨marked ++ (m.split rest).marked, (m.split rest).tail⟩ := by
  induction marked
  case nil => rfl
  case cons p marked ih =>
    have hr := h p List.mem_cons_self
    have hi := ih fun q hq => h q (List.mem_cons_of_mem _ hq)
    rw [text_cons, List.append_assoc, hr, hi]
    rfl

theorem Keeps.exists_split_append (h : m.Keeps gap content) (rest : List Char) :
    ∃ block g, Split.text m ⟨block ++ [(g, content)], []⟩ = gap ++ m.token content ∧
      m.split (gap ++ m.token content ++ rest) =
        ⟨block ++ [(g, content)] ++ (m.split rest).marked, (m.split rest).tail⟩ := by
  have ⟨block, g, hs⟩ := h
  have ht : Split.text m ⟨block ++ [(g, content)], []⟩ = gap ++ m.token content := by
    rw [← hs, m.text_split]
  have hr : ∀ p ∈ block ++ [(g, content)], m.Reads p.1 p.2 := by
    intro p hp
    have hm : p ∈ (m.split (gap ++ m.token content)).marked := by rwa [hs]
    exact reads_of_mem hm
  exact ⟨block, g, ht, ht ▸ split_append_of_reads hr rest⟩

theorem keeps_of_tokenAt (h : (m.split (gap ++ m.token content ++ rest)).TokenAt m gap content) :
    m.Keeps gap content := by
  have ⟨block, g, after, hm, hg⟩ := h
  have ht : Split.text m ⟨block ++ [(g, content)], []⟩ = gap ++ m.token content := by
    simp [text_append, text_cons, text_nil, hg, text_eq_append block g]
  have hr : ∀ p ∈ block ++ [(g, content)], m.Reads p.1 p.2 := by
    intro p hp
    rw [List.append_cons] at hm
    exact reads_of_mem (hm ▸ List.mem_append_left after hp)
  exact ⟨block, g, by simpa [ht, split_nil] using split_append_of_reads hr []⟩

end Marking

open Marking in
theorem Split.found_again_iff {m : Marking} {s : Split} :
    (∀ front content, s.TokenAt m front content →
      (m.split (s.text m)).TokenAt m front content) ↔ ∀ p ∈ s.marked, m.Keeps p.1 p.2 := by
  -- A scan that keeps the first marked part starts afresh behind it.
  induction s using consInduction
  case plain => simp [TokenAt]
  case cons p marked tail ih =>
    rw [text_cons, List.forall_mem_cons, ← ih]
    constructor
    case mp =>
      intro h
      have hk := keeps_of_tokenAt (h p.1 p.2 (tokenAt_cons_iff.2 (.inl ⟨rfl, rfl⟩)))
      refine ⟨hk, fun front content ht => ?_⟩
      have ⟨block, g, hb, hs⟩ := hk.exists_split_append (text m ⟨marked, tail⟩)
      have ht' := h _ content (tokenAt_cons_iff.2 (.inr ⟨front, rfl, ht⟩))
      rw [hs, tokenAt_append_iff, hb] at ht'
      rcases ht' with ht' | ⟨front', hf, ht'⟩
      case inr => exact List.append_cancel_left hf ▸ ht'
      case inl =>
        -- A marked part that ends in the block does not begin behind it.
        have hl := (prefix_text_of_tokenAt ht').length_le
        have hc := List.length_pos_iff.2 m.closing_ne
        simp only [hb, token, List.length_append] at hl
        omega
    case mpr =>
      rintro ⟨hk, h⟩ front content ht
      have ⟨block, g, hb, hs⟩ := hk.exists_split_append (text m ⟨marked, tail⟩)
      rw [hs, tokenAt_append_iff, hb]
      rcases tokenAt_cons_iff.1 ht with ⟨rfl, rfl⟩ | ⟨front', rfl, ht'⟩
      case inr => exact .inr ⟨front', rfl, h front' content ht'⟩
      case inl =>
        refine .inl ⟨block, g, [], rfl, ?_⟩
        rw [text_append, text_cons, text_nil, List.append_nil, ← List.append_assoc] at hb
        rw [text_eq_append, List.append_cancel_right hb]

namespace Split

open Marking

-- The first opening mark in each gap and the marked part behind it is that of the marked part, and
-- there is none at the end.
structure Clear (m : Marking) (s : Split) : Prop where
  gaps : ∀ p ∈ s.marked, ∀ front, front ++ m.opening <+: p.1 ++ m.token p.2 →
    p.1.length ≤ front.length
  tail : ¬ m.opening <:+: s.tail

theorem clear_iff {m : Marking} {s : Split} :
    s.Clear m ↔
      (∀ p ∈ s.marked,
        Text.cut? m.opening (p.1 ++ m.token p.2) = some (p.1, p.2 ++ m.closing)) ∧
      Text.cut? m.opening s.tail = none := by
  rw [Text.cut?_eq_none_iff]
  constructor
  case mp =>
    refine fun h => ⟨fun p hp => ?_, h.tail⟩
    have ht : p.1 ++ m.token p.2 = p.1 ++ m.opening ++ (p.2 ++ m.closing) := by simp [token]
    rw [ht]
    exact Text.cut?_of_first fun front hf => h.gaps p hp front (ht ▸ hf)
  case mpr => exact fun h => ⟨fun p hp _ => Text.length_le_of_cut? (h.1 p hp), h.2⟩

theorem Clear.split_text {m : Marking} {s : Split} (h : s.Clear m)
    (hc : ∀ p ∈ s.marked, ∀ more, m.close (p.2 ++ m.closing ++ more) = some (p.2, more)) :
    m.split (s.text m) = s := by
  have ⟨hg, ht⟩ := clear_iff.1 h
  clear h
  induction s using consInduction
  case plain tail => exact split_of_cut?_eq_none ht
  case cons p marked tail ih =>
    have ho := Text.cut?_append (hg p List.mem_cons_self)
      (p.2 ++ m.closing ++ text m ⟨marked, tail⟩)
    have hs := ih (fun q hq => hc q (List.mem_cons_of_mem _ hq))
      (fun q hq => hg q (List.mem_cons_of_mem _ hq)) ht
    have heq : p.1 ++ m.opening ++ (p.2 ++ m.closing ++ text m ⟨marked, tail⟩) =
        text m ⟨p :: marked, tail⟩ := by simp [text_cons, token]
    rw [← heq, split_of_close ho (hc p List.mem_cons_self _), hs]

end Split
end Phrasebook.Template
