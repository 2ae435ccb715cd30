import Phrasebook.Proofs.Run.Results

namespace Phrasebook.Template

namespace Split

def gaps (s : Split) : List (List Char) :=
  s.marked.map Prod.fst ++ [s.tail]

def contents (s : Split) : List (List Char) :=
  s.marked.map Prod.snd

variable {m : Marking} {s : Split}

theorem infix_text_of_mem_gaps {gap : List Char} (h : gap ∈ s.gaps) : gap <:+: s.text m := by
  induction s using consInduction
  case plain =>
    cases List.mem_singleton.1 h
    exact List.infix_rfl
  case cons p marked tail ih =>
    rcases List.mem_cons.1 h with rfl | h
    case inl => exact ⟨[], m.token p.2 ++ text m ⟨marked, tail⟩, by simp [text_cons]⟩
    case inr => exact (ih h).trans (List.suffix_append ..).isInfix

theorem token_infix_text_of_mem_contents {content : List Char} (h : content ∈ s.contents) :
    m.token content <:+: s.text m := by
  induction s using consInduction
  case plain => cases h
  case cons p marked tail ih =>
    rcases List.mem_cons.1 h with rfl | h
    case inl => exact ⟨p.1, text m ⟨marked, tail⟩, rfl⟩
    case inr => exact (ih h).trans (List.suffix_append ..).isInfix

theorem renderM_yields {ε : Type} {gap content : List Char → Run ε (List Char)}
    {P : List Char → Prop} (happ : ∀ s t, P s → P t → P (s ++ t))
    (hg : ∀ g ∈ s.gaps, (gap g).Yields P) (hc : ∀ c ∈ s.contents, (content c).Yields P) :
    (s.renderM gap content).Yields P := by
  induction s using consInduction
  case plain tail => exact hg tail List.mem_cons_self
  case cons p marked tail ih =>
    have hg' : ∀ g ∈ gaps ⟨marked, tail⟩, (gap g).Yields P :=
      fun g h => hg g (List.mem_cons_of_mem _ h)
    have hc' : ∀ c ∈ contents ⟨marked, tail⟩, (content c).Yields P :=
      fun c h => hc c (List.mem_cons_of_mem _ h)
    rw [renderM_cons]
    refine (hg p.1 List.mem_cons_self).bind fun before hb => ?_
    refine (hc p.2 List.mem_cons_self).bind fun text ht => ?_
    exact (ih hg' hc').bind fun rest hr => .pure (happ _ _ (happ _ _ hb ht) hr)

-- A split with the same number of pieces, each of them made of its counterpart by a run.
inductive Renders {ε : Type} (gap content : List Char → Run ε (List Char)) : Split → Split → Prop
  | tail {t t' : List Char} (h : (gap t).outcome = .done t') : Renders gap content ⟨[], t⟩ ⟨[], t'⟩
  | cons {p p' : List Char × List Char} {marked marked' : List (List Char × List Char)}
      {t t' : List Char} (hg : (gap p.1).outcome = .done p'.1)
      (hc : (content p.2).outcome = .done p'.2)
      (hs : Renders gap content ⟨marked, t⟩ ⟨marked', t'⟩) :
      Renders gap content ⟨p :: marked, t⟩ ⟨p' :: marked', t'⟩

def join (wrap : List Char → List Char) (s : Split) : List Char :=
  s.marked.foldr (fun (gap, content) text => gap ++ wrap content ++ text) s.tail

section Renders

variable {ε : Type} {gap content : List Char → Run ε (List Char)} {s' : Split}

theorem Renders.contents_eq (h : s.Renders gap pure s') : s'.contents = s.contents := by
  induction h
  case tail => rfl
  case cons hc _ ih =>
    injection hc with hc
    exact List.cons_eq_cons.2 ⟨hc.symm, ih⟩

theorem Renders.gaps_eq (h : s.Renders pure content s') : s'.gaps = s.gaps := by
  induction h
  case tail h =>
    cases h
    rfl
  case cons hg _ _ ih =>
    injection hg with hg
    exact List.cons_eq_cons.2 ⟨hg.symm, ih⟩

theorem Renders.exists_of_mem (h : s.Renders gap content s') {c : List Char}
    (hc : c ∈ s.contents) : ∃ c', (content c).outcome = .done c' := by
  induction h
  case tail => cases hc
  case cons p p' _ _ _ _ _ hp _ ih =>
    rcases List.mem_cons.1 hc with rfl | hc
    case inl => exact ⟨p'.2, hp⟩
    case inr => exact ih hc

theorem Renders.mono {gap' content' : List Char → Run ε (List Char)} (h : s.Renders gap content s')
    (hg : ∀ g t, (gap g).outcome = .done t → (gap' g).outcome = .done t)
    (hc : ∀ c t, (content c).outcome = .done t → (content' c).outcome = .done t) :
    s.Renders gap' content' s' := by
  induction h
  case tail h => exact .tail (hg _ _ h)
  case cons h h' _ ih => exact .cons (hg _ _ h) (hc _ _ h') ih

theorem outcome_renderM_eq_done_iff {wrap : List Char → List Char} {text : List Char} :
    (s.renderM gap fun c => wrap <$> content c).outcome = .done text ↔
      ∃ s', s.Renders gap content s' ∧ s'.join wrap = text := by
  constructor
  case mp =>
    intro h
    induction s using Split.consInduction generalizing text
    case plain => exact ⟨⟨[], text⟩, .tail h, rfl⟩
    case cons p marked tail ih =>
      simp only [renderM_cons, Run.outcome_bind_eq_done_iff, Run.outcome_map_eq_done_iff] at h
      obtain ⟨before, hb, _, ⟨c, hc, rfl⟩, rest, hr, ht⟩ := h
      obtain ⟨s', hs, rfl⟩ := ih hr
      cases ht
      exact ⟨⟨(before, c) :: s'.marked, s'.tail⟩, .cons hb hc hs, rfl⟩
  case mpr =>
    rintro ⟨s', h, rfl⟩
    induction h
    case tail h => exact h
    case cons hg hc _ ih =>
      simp only [renderM_cons, Run.outcome_bind_eq_done_iff, Run.outcome_map_eq_done_iff]
      exact ⟨_, hg, _, ⟨_, hc, rfl⟩, _, ih, rfl⟩

theorem events_subset_renderM {text : List Char}
    (h : (s.renderM gap content).outcome = .done text) {c : List Char} (hc : c ∈ s.contents) :
    (content c).events ⊆ (s.renderM gap content).events := by
  induction s using Split.consInduction generalizing text
  case plain => cases hc
  case cons p marked tail ih =>
    simp only [renderM_cons, Run.outcome_bind_eq_done_iff] at h
    obtain ⟨before, hb, text, ht, rest, hr, _⟩ := h
    rw [renderM_cons, Run.events_bind hb, Run.events_bind ht, Run.events_bind hr]
    rcases List.mem_cons.1 hc with rfl | hc
    case inl => simp
    case inr => exact fun e he => by simp [ih hr hc he]

end Renders

end Split

namespace Marking

variable {m : Marking} {text : List Char}

theorem infix_of_mem_gaps {gap : List Char} (h : gap ∈ (m.split text).gaps) : gap <:+: text :=
  m.text_split text ▸ Split.infix_text_of_mem_gaps h

theorem token_infix_of_mem_contents {content : List Char} (h : content ∈ (m.split text).contents) :
    m.token content <:+: text := by
  have := Split.token_infix_text_of_mem_contents (m := m) h
  rwa [m.text_split text] at this

end Marking

end Phrasebook.Template
