import Phrasebook.Proofs.Template.Closing
import Phrasebook.Proofs.Template.Scan
import Phrasebook.Template.Marks

namespace Phrasebook.Template

structure Stretch where
  start : Nat
  stop : Nat
  content : List Char
deriving DecidableEq

def Split.stretchesFrom (m : Marking) (position : Nat) :
    List (List Char × List Char) → List Stretch
  | [] => []
  | (gap, content) :: marked =>
    let start := position + gap.length
    let stop := start + (m.token content).length
    ⟨start, stop, content⟩ :: stretchesFrom m stop marked

def Split.stretches (m : Marking) (s : Split) : List Stretch :=
  stretchesFrom m 0 s.marked

open Split

namespace Marking

variable {m : Marking} {text before : List Char} {position : Nat} {t : Stretch}
  {marked : List (List Char × List Char)} {tail : List Char}

theorem le_start_of_mem (h : t ∈ stretchesFrom m position marked) : position ≤ t.start := by
  induction marked generalizing position
  case nil => cases h
  case cons p marked ih =>
    rcases List.mem_cons.1 h with rfl | h
    case inl => exact Nat.le_add_right _ _
    case inr => exact Nat.le_trans (by omega) (ih h)

theorem start_lt_stop_of_mem (h : t ∈ stretchesFrom m position marked) : t.start < t.stop := by
  induction marked generalizing position
  case nil => cases h
  case cons p marked ih =>
    rcases List.mem_cons.1 h with rfl | h
    case inr => exact ih h
    case inl =>
      have := List.length_pos_iff.2 m.closing_ne
      simp only [token, List.length_append]
      omega

theorem stretches_apart :
    (stretchesFrom m position marked).Pairwise fun t t' => t.stop ≤ t'.start := by
  induction marked generalizing position
  case nil => exact .nil
  case cons p marked ih => exact .cons (fun _ h => le_start_of_mem h) ih

theorem extract_middle (before part rest : List Char) :
    (before ++ part ++ rest).extract before.length (before.length + part.length) = part := by
  rw [List.extract_eq_take_drop, List.append_assoc, List.drop_left, Nat.add_sub_cancel_left,
    List.take_left]

theorem extract_stretch (h : t ∈ stretchesFrom m before.length marked) :
    t.stop ≤ (before ++ Split.text m ⟨marked, tail⟩).length ∧
      (before ++ Split.text m ⟨marked, tail⟩).extract t.start t.stop = m.token t.content := by
  induction marked generalizing before
  case nil => cases h
  case cons p marked ih =>
    have hb : (before ++ p.1 ++ m.token p.2).length =
        before.length + p.1.length + (m.token p.2).length := by
      simp only [List.length_append]
    have ht : before ++ Split.text m ⟨p :: marked, tail⟩ =
        before ++ p.1 ++ m.token p.2 ++ Split.text m ⟨marked, tail⟩ := by
      simp only [text_cons, List.append_assoc]
    rw [ht]
    rcases List.mem_cons.1 h with rfl | h
    case inl =>
      refine ⟨?_, ?_⟩
      case refine_1 =>
        rw [List.length_append, hb]
        exact Nat.le_add_right _ _
      case refine_2 =>
        rw [← List.length_append]
        exact extract_middle (before ++ p.1) (m.token p.2) _
    case inr => exact ih (hb ▸ h)

theorem length_le_of_prefix_drop {mark text before rest : List Char} {i : Nat}
    (hc : Text.cut? mark text = some (before, rest)) (h : mark <+: text.drop i) :
    before.length ≤ i := by
  have hp : text.take i ++ mark <+: text.take i ++ text.drop i :=
    (List.prefix_append_right_inj _).2 h
  rw [List.take_append_drop] at hp
  exact Nat.le_trans (Text.length_le_of_cut? hc hp) (List.length_take_le i text)

theorem eq_append_of_cut? {gap body content rest : List Char}
    (ho : Text.cut? m.opening text = some (gap, body)) (hc : m.close body = some (content, rest)) :
    text = gap ++ m.token content ++ rest := by
  simp only [Text.eq_of_cut? ho, m.eq_of_close hc, token, List.append_assoc]

theorem drop_token (gap content rest : List Char) (k : Nat) :
    (gap ++ m.token content ++ rest).drop (gap.length + (m.token content).length + k) =
      rest.drop k := by
  rw [← List.length_append, List.drop_length_add_append]

theorem exists_stretch_of_opening {i : Nat}
    (h : t ∈ stretchesFrom m position (m.split text).marked) (hi : position + i < t.start)
    (ho : m.opening <+: text.drop i) :
    ∃ t' ∈ stretchesFrom m position (m.split text).marked,
      t'.start ≤ position + i ∧ position + i < t'.stop := by
  fun_induction m.split text generalizing position i
  case case1 => cases h
  case case2 => cases h
  case case3 text gap body hg content rest hc _ s ih =>
    have hle := length_le_of_prefix_drop hg ho
    have ht := eq_append_of_cut? hg hc
    by_cases hin : i < gap.length + (m.token content).length
    case pos =>
      refine ⟨_, List.mem_cons_self, ?_, ?_⟩ <;> dsimp only <;> omega
    case neg =>
      obtain ⟨k, rfl⟩ := Nat.exists_eq_add_of_le (Nat.le_of_not_lt hin)
      rw [ht, drop_token] at ho
      rcases List.mem_cons.1 h with rfl | h
      case inl =>
        dsimp only at hi
        omega
      case inr =>
        obtain ⟨t', hm, h₁, h₂⟩ := ih h (by omega) ho
        exact ⟨t', List.mem_cons_of_mem _ hm, by omega, by omega⟩

theorem close_eq_none_of_last {i : Nat}
    (h : ∀ t ∈ stretchesFrom m position (m.split text).marked, t.stop ≤ position + i)
    (ho : m.opening <+: text.drop i)
    (hf : ∀ j < i, (∀ t ∈ stretchesFrom m position (m.split text).marked, t.stop ≤ position + j) →
      ¬ m.opening <+: text.drop j) :
    m.close (text.drop (i + m.opening.length)) = none := by
  fun_induction m.split text generalizing position i
  case case1 text hg =>
    exact absurd (ho.isInfix.trans (List.drop_suffix i text).isInfix) (Text.cut?_eq_none_iff.1 hg)
  case case2 text gap body hg hc =>
    have ht := Text.eq_of_cut? hg
    have hle := length_le_of_prefix_drop hg ho
    have hfirst : m.opening <+: text.drop gap.length := by
      rw [ht, List.append_assoc, List.drop_left]
      exact List.prefix_append _ _
    have hi : ¬ gap.length < i := fun hlt => hf _ hlt (List.forall_mem_nil _) hfirst
    obtain rfl : i = gap.length := by omega
    rw [← List.length_append, ht, List.drop_left, hc]
  case case3 text gap body hg content rest hc _ s ih =>
    have ht := eq_append_of_cut? hg hc
    have hstop := h _ List.mem_cons_self
    obtain ⟨k, rfl⟩ : ∃ k, i = gap.length + (m.token content).length + k :=
      Nat.exists_eq_add_of_le (by dsimp only at hstop; omega)
    rw [ht, drop_token] at ho
    rw [ht, Nat.add_assoc _ k, drop_token]
    have hrest : ∀ t ∈ stretchesFrom m (position + gap.length + (m.token content).length) s.marked,
        t.stop ≤ position + gap.length + (m.token content).length + k := by
      intro t hm
      have := h t (List.mem_cons_of_mem _ hm)
      omega
    refine ih hrest ho fun j hj hpassed hopening => ?_
    refine hf (gap.length + (m.token content).length + j) (by omega) ?_ ?_
    case refine_1 =>
      refine List.forall_mem_cons.2 ⟨by dsimp only; omega, fun t hm => ?_⟩
      have := hpassed t hm
      omega
    case refine_2 => rwa [ht, drop_token]

theorem exists_of_mem_stretches (h : t ∈ stretchesFrom m position marked) :
    ∃ gap, (gap, t.content) ∈ marked := by
  induction marked generalizing position
  case nil => cases h
  case cons p marked ih =>
    rcases List.mem_cons.1 h with rfl | h
    case inl => exact ⟨p.1, List.mem_cons_self⟩
    case inr =>
      obtain ⟨gap, hm⟩ := ih h
      exact ⟨gap, List.mem_cons_of_mem _ hm⟩

theorem split_token {p : List Char × List Char} (h : p ∈ (m.split text).marked) :
    m.split (m.token p.2) = ⟨[([], p.2)], []⟩ := by
  have ho : Text.cut? m.opening (m.token p.2) = some ([], p.2 ++ m.closing) :=
    Text.cut?_of_after? (Text.after?_eq_some_iff.2 (by simp [token]))
  have hc : m.close (p.2 ++ m.closing) = some (p.2, []) := by
    simpa using close_of_mem h []
  rw [split_of_close ho hc, split_nil]

end Marking

namespace Split

-- A text taken apart at its nesting tokens, from the left. Each of them begins at the first opening
-- mark behind the one before, and ends at the first closing mark behind that which is outside of
-- quotation marks and brackets.
inductive Nests (opening closing : List Char) : List Char → Split → Prop
  | tail {text : List Char}
      (h : ∀ gap body, text = gap ++ opening ++ body → Text.First opening gap body →
        ∀ front, ¬ Nesting.Closes closing {} body front) : Nests opening closing text ⟨[], text⟩
  | cons {gap content rest : List Char} {s : Split}
      (ho : Text.First opening gap (content ++ closing ++ rest))
      (hc : Nesting.Closes closing {} (content ++ closing ++ rest) content)
      (hf : ∀ front, Nesting.Closes closing {} (content ++ closing ++ rest) front →
        content.length ≤ front.length)
      (hs : Nests opening closing rest s) :
      Nests opening closing (gap ++ opening ++ (content ++ closing ++ rest))
        ⟨(gap, content) :: s.marked, s.tail⟩

end Split

theorem Marking.nests_iff {m : Marking} (hm : m.close = Nesting.close? m.closing {})
    {text : List Char} {s : Split} : s.Nests m.opening m.closing text ↔ s = m.split text := by
  constructor
  case mp =>
    intro h
    induction h
    case tail text h =>
      cases ho : Text.cut? m.opening text
      case none => exact (split_of_cut?_eq_none ho).symm
      case some p =>
        obtain ⟨ht, hf⟩ := Text.cut?_eq_some_iff.1 ho
        have hc : m.close p.2 = none :=
          hm ▸ (Nesting.close?_eq_none_iff m.closing_ne).2 (h _ _ ht hf)
        exact (split_of_close_eq_none ho hc).symm
    case cons ho hc hf _ ih =>
      have hclose := (Nesting.close?_eq_some_iff m.closing_ne).2 ⟨rfl, hc, hf⟩
      rw [split_of_close (Text.cut?_of_first ho) (hm ▸ hclose), ← ih]
  case mpr =>
    rintro rfl
    fun_induction m.split text
    case case1 ho =>
      refine .tail fun gap body ht _ => ?_
      exact absurd ⟨gap, body, ht.symm⟩ (Text.cut?_eq_none_iff.1 ho)
    case case2 ho hc =>
      refine .tail fun gap body ht hf => ?_
      cases ho.symm.trans (ht ▸ Text.cut?_of_first hf)
      exact (Nesting.close?_eq_none_iff m.closing_ne).1 (hm ▸ hc)
    case case3 text gap body ho content rest hc _ _ ih =>
      obtain ⟨ht, hfo⟩ := Text.cut?_eq_some_iff.1 ho
      obtain ⟨hb, hcloses, hfirst⟩ := (Nesting.close?_eq_some_iff m.closing_ne).1 (hm ▸ hc)
      subst hb
      subst ht
      exact .cons hfo hcloses hfirst ih

-- The nesting tokens of a text by their places. Before each of them an opening mark is inside of
-- another one, and in each of them a closing mark is inside of quotation marks or brackets, or
-- would begin with one. Behind all of them the first opening mark, if there is one, is not closed.
structure Nesting.InPlace (opening closing text : List Char) (found : List Stretch) : Prop where
  apart : found.Pairwise fun t t' => t.stop ≤ t'.start
  within : ∀ t ∈ found, t.start < t.stop ∧ t.stop ≤ text.length
  reads : ∀ t ∈ found, text.extract t.start t.stop = opening ++ t.content ++ closing
  opens : ∀ t ∈ found, ∀ i < t.start, opening <+: text.drop i →
    ∃ t' ∈ found, t'.start ≤ i ∧ i < t'.stop
  closes : ∀ t ∈ found, ∀ front, front.length < t.content.length →
    front ++ closing <+: t.content ++ closing → Nesting.reached {} front = {} →
      ∃ c ∈ ['"', '\x7b', '['], front ++ [c] <+: t.content
  last : ∀ i, (∀ t ∈ found, t.stop ≤ i) → opening <+: text.drop i →
    (∀ j < i, (∀ t ∈ found, t.stop ≤ j) → ¬ opening <+: text.drop j) →
      ∀ front, ¬ Nesting.Closes closing {} (text.drop (i + opening.length)) front

namespace Marking

variable {m : Marking} {text : List Char} {t : Stretch}

theorem exists_opens_of_closing (hm : m.close = Nesting.close? m.closing {})
    (ht : t ∈ (m.split text).stretches m) {front : List Char}
    (hl : front.length < t.content.length)
    (ho : front ++ m.closing <+: t.content ++ m.closing) (hr : Nesting.reached {} front = {}) :
    ∃ c ∈ ['"', '\x7b', '['], front ++ [c] <+: t.content := by
  obtain ⟨gap, hp⟩ := exists_of_mem_stretches ht
  have hc : Nesting.close? m.closing {} (t.content ++ m.closing) = some (t.content, []) := by
    simpa [hm] using close_of_mem hp []
  obtain ⟨-, hfirst⟩ := Nesting.closes_of_close? m.closing_ne hc
  obtain ⟨c, more, hmore⟩ := List.exists_cons_of_ne_nil m.closing_ne
  by_cases hmem : c ∈ ['"', '\x7b', '[']
  case neg =>
    have hcloses : Nesting.Closes m.closing {} (t.content ++ m.closing) front :=
      ⟨ho, hr, by rw [hmore]; rintro _ ⟨rfl⟩; exact hmem⟩
    exact absurd (hfirst front hcloses) (Nat.not_le_of_lt hl)
  case pos =>
    have hfront : front ++ [c] <+: t.content ++ m.closing :=
      .trans ⟨more, by rw [hmore, List.append_assoc, List.singleton_append]⟩ ho
    have hle : (front ++ [c]).length ≤ t.content.length := by
      rwa [List.length_append, List.length_singleton]
    exact ⟨c, hmem, List.prefix_of_prefix_length_le hfront (List.prefix_append _ _) hle⟩

theorem extract_of_mem_stretches (h : t ∈ (m.split text).stretches m) :
    t.stop ≤ text.length ∧ text.extract t.start t.stop = m.token t.content := by
  have hs : t.stop ≤ ([] ++ (m.split text).text m).length ∧
      ([] ++ (m.split text).text m).extract t.start t.stop = m.token t.content := extract_stretch h
  rwa [List.nil_append, m.text_split] at hs

theorem nesting_inPlace (hm : m.close = Nesting.close? m.closing {}) (text : List Char) :
    Nesting.InPlace m.opening m.closing text ((m.split text).stretches m) where
  apart := stretches_apart
  within t ht := ⟨start_lt_stop_of_mem ht, (extract_of_mem_stretches ht).1⟩
  reads t ht := (extract_of_mem_stretches ht).2
  opens t ht i hi ho := by
    simpa only [stretches, Nat.zero_add] using
      exists_stretch_of_opening ht (by rwa [Nat.zero_add]) ho
  closes t ht front hl ho hr := exists_opens_of_closing hm ht hl ho hr
  last i hpassed ho hfirst := by
    refine (Nesting.close?_eq_none_iff m.closing_ne).1 (hm ▸ ?_)
    have hpassed : ∀ t ∈ stretchesFrom m 0 (m.split text).marked, t.stop ≤ 0 + i := by
      simpa only [stretches, Nat.zero_add] using hpassed
    refine close_eq_none_of_last hpassed ho fun j hj hp => hfirst j hj ?_
    simpa only [stretches, Nat.zero_add] using hp

end Marking

variable {ι : Type}

theorem nestingMarks_eq (o : Options ι) {opening closing : String} (ho : opening ≠ "")
    (hc : closing ≠ "") :
    let m := { o with nestOpening := .set opening, nestClosing := .set closing }.nestingMarks
    m.opening = opening.toList ∧ m.closing = closing.toList ∧
      m.close = Nesting.close? closing.toList {} := by
  simp [Options.nestingMarks, Setting.textOr, ho, hc]

-- Whatever marks are set, a text is taken apart at its nesting tokens in one way only. With the
-- gaps they make up the text, each is in its place, and its own text has just the one token.
theorem nesting_tokens_in_place (o : Options ι) {opening closing : String} (ho : opening ≠ "")
    (hc : closing ≠ "") (text : List Char) :
    let m := { o with nestOpening := .set opening, nestClosing := .set closing }.nestingMarks
    let s := m.split text
    (∀ s' : Split, s'.Nests opening.toList closing.toList text ↔ s' = s) ∧
      s.text m = text ∧
      Nesting.InPlace opening.toList closing.toList text (s.stretches m) ∧
      ∀ t ∈ s.stretches m,
        m.split (opening.toList ++ t.content ++ closing.toList) = ⟨[([], t.content)], []⟩ := by
  intro m s
  obtain ⟨hopening, hclosing, hm⟩ := nestingMarks_eq o ho hc
  rw [← hclosing] at hm
  have hplace := Marking.nesting_inPlace hm text
  rw [← hopening, ← hclosing]
  refine ⟨fun _ => Marking.nests_iff hm, m.text_split text, hplace, fun t ht => ?_⟩
  obtain ⟨gap, hp⟩ := Marking.exists_of_mem_stretches ht
  exact Marking.split_token hp

theorem braced_token_in_place :
    let o : Options Empty :=
      { Options.base with nestOpening := .set "@\x7b", nestClosing := .set "\x7d" }
    let m := o.nestingMarks
    let text := "Hi @\x7bname, \x7b\"sep\": \"\x7d\"\x7d\x7d, @\x7bbye".toList
    let t : Stretch := ⟨3, 24, "name, \x7b\"sep\": \"\x7d\"\x7d".toList⟩
    ("@\x7b" ≠ "" ∧ "\x7d" ≠ "") ∧
      m.split text = ⟨[("Hi ".toList, t.content)], ", @\x7bbye".toList⟩ ∧
      Nesting.InPlace "@\x7b".toList "\x7d".toList text [t] ∧
      m.split ("@\x7b".toList ++ t.content ++ "\x7d".toList) = ⟨[([], t.content)], []⟩ := by
  intro o m text t
  have ho : "@\x7b" ≠ "" := by decide
  have hc : "\x7d" ≠ "" := by decide
  have hs : m.split text = ⟨[("Hi ".toList, t.content)], ", @\x7bbye".toList⟩ := by
    decide +kernel
  have hplaces : (m.split text).stretches m = [t] := by
    rw [hs]
    decide +kernel
  obtain ⟨-, -, hplace, halone⟩ := nesting_tokens_in_place (Options.base : Options Empty) ho hc text
  rw [hplaces] at hplace
  exact ⟨⟨ho, hc⟩, hs, hplace, halone t (hplaces ▸ List.mem_singleton_self t)⟩

end Phrasebook.Template
