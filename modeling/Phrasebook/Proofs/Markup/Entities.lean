import Phrasebook.Markup
import Phrasebook.Text.Cut

namespace Phrasebook.Markup

def entities : List (Char × List Char) :=
  [('&', "&amp;".toList), ('<', "&lt;".toList), ('>', "&gt;".toList), ('"', "&quot;".toList),
    ('\'', "&#x27;".toList), ('/', "&#x2F;".toList)]

def entity? (text : List Char) : Option (Char × List Char) :=
  entities.findSome? fun (c, name) => (Text.after? name text).map (c, ·)

-- Nothing has a meaning in the text but entities.
structure Safe (text : List Char) : Prop where
  no_marks : ∀ c ∈ ['<', '>', '"', '\'', '/'], c ∉ text
  entity_of_ampersand : ∀ before rest, text = before ++ '&' :: rest →
    ∃ e ∈ entities, e.2 <+: '&' :: rest

variable {c : Char} {name text text' rest : List Char}

theorem escapeChar_of_mem (h : (c, name) ∈ entities) : escapeChar c = name := by
  have he : ∀ e ∈ entities, escapeChar e.1 = e.2 := by decide
  exact he _ h

theorem escapeChar_mem_or (c : Char) :
    (c, escapeChar c) ∈ entities ∨ escapeChar c = [c] ∧ c ∉ entities.map Prod.fst := by
  by_cases h : c ∈ entities.map Prod.fst
  case pos =>
    obtain ⟨e, he, rfl⟩ := List.mem_map.1 h
    exact .inl ((escapeChar_of_mem he).symm ▸ he)
  case neg =>
    refine .inr ⟨?_, h⟩
    unfold escapeChar
    split
    case h_7 => rfl
    all_goals exact absurd (by decide) h

theorem exists_of_mem (h : (c, name) ∈ entities) :
    ∃ body, name = '&' :: body ∧ ∀ d ∈ body, d ∉ entities.map Prod.fst := by
  have he : ∀ e ∈ entities, e.2 = '&' :: e.2.tail ∧
      e.2.tail.all (· ∉ entities.map Prod.fst) := by decide
  have ⟨hn, hb⟩ := he _ h
  exact ⟨name.tail, hn, fun d hd => of_decide_eq_true (List.all_eq_true.1 hb d hd)⟩

theorem entity?_append (h : (c, name) ∈ entities) (rest : List Char) :
    entity? (name ++ rest) = some (c, rest) := by
  simp only [entities, List.mem_cons, List.not_mem_nil, or_false, Prod.mk.injEq] at h
  rcases h with ⟨rfl, rfl⟩ | ⟨rfl, rfl⟩ | ⟨rfl, rfl⟩ | ⟨rfl, rfl⟩ | ⟨rfl, rfl⟩ | ⟨rfl, rfl⟩ <;> rfl

theorem exists_of_entity? (h : entity? text = some (c, rest)) :
    ∃ name, (c, name) ∈ entities ∧ text = name ++ rest := by
  obtain ⟨e, he, h⟩ := List.exists_of_findSome?_eq_some h
  obtain ⟨_, ha, heq⟩ := Option.map_eq_some_iff.1 h
  cases heq
  exact ⟨e.2, he, Text.after?_eq_some_iff.1 ha⟩

theorem entity?_of_ne (h : c ≠ '&') : entity? (c :: rest) = none := by
  refine Option.eq_none_iff_forall_ne_some.2 fun (d, _) he => ?_
  obtain ⟨name, hm, ht⟩ := exists_of_entity? he
  obtain ⟨body, rfl, _⟩ := exists_of_mem hm
  exact h (List.cons.inj ht).1

theorem length_lt_of_entity? (h : entity? text = some (c, rest)) : rest.length < text.length := by
  obtain ⟨name, hm, rfl⟩ := exists_of_entity? h
  obtain ⟨body, rfl, _⟩ := exists_of_mem hm
  simp only [List.cons_append, List.length_cons, List.length_append]
  omega

def decode : List Char → List Char
  | [] => []
  | c :: text =>
    match h : entity? (c :: text) with
    | some (d, rest) =>
      have := length_lt_of_entity? h
      d :: decode rest
    | none => c :: decode text
termination_by text => text.length
decreasing_by
  case _ => exact this
  case _ => exact Nat.lt_add_one _

theorem decode_of_mem (h : (c, name) ∈ entities) (rest : List Char) :
    decode (name ++ rest) = c :: decode rest := by
  have he := entity?_append h rest
  obtain ⟨body, rfl, _⟩ := exists_of_mem h
  rw [List.cons_append] at he ⊢
  rw [decode]
  split
  case h_1 he' =>
    cases he.symm.trans he'
    rfl
  case h_2 he' => cases he.symm.trans he'

theorem decode_of_ne (h : c ≠ '&') (rest : List Char) : decode (c :: rest) = c :: decode rest := by
  rw [decode]
  split
  case h_1 he => cases (entity?_of_ne h).symm.trans he
  case h_2 => rfl

theorem decode_escapeChar_append (c : Char) (rest : List Char) :
    decode (escapeChar c ++ rest) = c :: decode rest := by
  rcases escapeChar_mem_or c with h | ⟨h, hc⟩
  case inl => exact decode_of_mem h rest
  case inr =>
    have hne : c ≠ '&' := by
      rintro rfl
      exact hc (by decide)
    rw [h, List.singleton_append, decode_of_ne hne]

theorem decode_escape (text : List Char) : decode (escape text) = text := by
  induction text
  case nil => rw [escape, List.flatMap_nil, decode]
  case cons c text ih =>
    have he : escape (c :: text) = escapeChar c ++ escape text := rfl
    rw [he, decode_escapeChar_append, ih]

theorem Safe.nil : Safe [] where
  no_marks := fun _ _ => List.not_mem_nil
  entity_of_ampersand := by
    intro before rest h
    simp at h

theorem Safe.append (h : Safe text) (h' : Safe text') : Safe (text ++ text') where
  no_marks := by
    intro c hc hm
    rcases List.mem_append.1 hm with hm | hm
    case inl => exact h.no_marks c hc hm
    case inr => exact h'.no_marks c hc hm
  entity_of_ampersand := by
    intro before rest heq
    rcases List.append_eq_append_iff.1 heq with ⟨more, rfl, ht⟩ | ⟨more, ht, hr⟩
    case inl => exact h'.entity_of_ampersand more rest ht
    case inr =>
      cases more
      case nil => exact h'.entity_of_ampersand [] rest hr.symm
      case cons d more =>
        obtain ⟨rfl, rfl⟩ := List.cons.inj hr
        have ⟨e, he, hp⟩ := h.entity_of_ampersand before more ht
        exact ⟨e, he, hp.trans (List.prefix_append ('&' :: more) text')⟩

theorem Safe.of_append (h : Safe (text ++ text')) : Safe text' where
  no_marks := fun c hc hm => h.no_marks c hc (List.mem_append_right text hm)
  entity_of_ampersand := by
    rintro before rest rfl
    exact h.entity_of_ampersand (text ++ before) rest (List.append_assoc ..).symm

theorem safe_of_mem (h : (c, name) ∈ entities) : Safe name where
  no_marks := by
    obtain ⟨body, rfl, hb⟩ := exists_of_mem h
    intro d hd hm
    have hne : d ≠ '&' := by
      rintro rfl
      exact absurd hd (by decide)
    have hm := (List.mem_cons.1 hm).resolve_left hne
    have hd : d ∈ entities.map Prod.fst := List.mem_cons_of_mem '&' hd
    exact hb d hm hd
  entity_of_ampersand := by
    intro before rest ht
    obtain ⟨body, rfl, hb⟩ := exists_of_mem h
    cases before
    case nil => exact ⟨_, h, ht ▸ List.prefix_rfl⟩
    case cons d before =>
      have hm : '&' ∈ body := by simp [(List.cons.inj ht).2]
      exact absurd (by decide) (hb '&' hm)

theorem safe_escapeChar (c : Char) : Safe (escapeChar c) := by
  rcases escapeChar_mem_or c with h | ⟨h, hc⟩
  case inl => exact safe_of_mem h
  case inr =>
    rw [h]
    refine ⟨fun d hd hm => ?_, fun before rest ht => ?_⟩
    case refine_1 =>
      cases List.mem_singleton.1 hm
      exact hc (List.mem_cons_of_mem '&' hd)
    case refine_2 =>
      have hm : '&' ∈ [c] := ht ▸ List.mem_append_right before List.mem_cons_self
      cases List.mem_singleton.1 hm
      exact absurd (by decide) hc

theorem safe_escape (text : List Char) : Safe (escape text) := by
  induction text
  case nil => exact .nil
  case cons c text ih => exact (safe_escapeChar c).append ih

theorem escape_decode (h : Safe text) : escape (decode text) = text := by
  fun_induction decode text
  case case1 => rfl
  case case2 c text d rest he _ ih =>
    obtain ⟨name, hm, ht⟩ := exists_of_entity? he
    rw [ht] at h
    calc
      escape (d :: decode rest) = escapeChar d ++ escape (decode rest) := rfl
      _ = name ++ rest := by rw [escapeChar_of_mem hm, ih h.of_append]
      _ = c :: text := ht.symm
  case case3 c text he ih =>
    have hc : c ∉ entities.map Prod.fst := by
      intro hc
      rcases List.mem_cons.1 hc with rfl | hc
      case inl =>
        have ⟨e, hm, more, ht⟩ := h.entity_of_ampersand [] text rfl
        cases he.symm.trans (ht ▸ entity?_append hm more)
      case inr => exact h.no_marks c hc List.mem_cons_self
    have hchar : escapeChar c = [c] := by
      rcases escapeChar_mem_or c with hm | ⟨hchar, _⟩
      case inl => exact absurd (List.mem_map_of_mem hm) hc
      case inr => exact hchar
    have ht : Safe ([c] ++ text) := h
    calc
      escape (c :: decode text) = escapeChar c ++ escape (decode text) := rfl
      _ = c :: text := by rw [hchar, ih ht.of_append, List.singleton_append]

theorem escape_of_mem (h : (c, name) ∈ entities) :
    escape name = "&amp;".toList ++ name.tail := by
  have he : ∀ e ∈ entities, escape e.2 = "&amp;".toList ++ e.2.tail := by decide
  exact he _ h

-- Entities in a text that is escaped are kept apart from the characters that they stand for.
theorem escape_lossless (x y : List Char) :
    Safe (escape x) ∧ escape (x ++ y) = escape x ++ escape y ∧
    decode (escape x) = x ∧ Function.Injective escape ∧
    (Safe x → escape (decode x) = x) ∧
    ∀ e ∈ entities,
      escape (x ++ e.2 ++ y) = escape x ++ "&amp;".toList ++ e.2.tail ++ escape y ∧
      escape (x ++ e.2 ++ y) ≠ escape (x ++ [e.1] ++ y) := by
  have hinj : Function.Injective escape := Function.LeftInverse.injective decode_escape
  refine ⟨safe_escape x, escape_append x y, decode_escape x, hinj, escape_decode, fun e he => ?_⟩
  refine ⟨by simp [escape_append, escape_of_mem he], fun heq => ?_⟩
  have hname : e.2 = [e.1] := List.append_cancel_left (List.append_cancel_right (hinj heq))
  have hne : ∀ e ∈ entities, e.2 ≠ [e.1] := by decide
  exact hne e he hname

theorem escaped_entity_kept_apart :
    let x := "&lt;b&gt; & <b title='/'>".toList
    let x' := "&amp;lt;b&amp;gt; &amp; &lt;b title=&#x27;&#x2F;&#x27;&gt;".toList
    escape x = x' ∧ decode x' = x ∧ Safe x' ∧ escape (decode x') = x' ∧
      ('<', "&lt;".toList) ∈ entities ∧
      escape (x ++ "&lt;".toList ++ x) ≠ escape (x ++ ['<'] ++ x) := by
  intro x x'
  have hx : escape x = x' := by decide
  have hm : ('<', "&lt;".toList) ∈ entities := by decide
  have ⟨hs, _, hd, _, _, he⟩ := escape_lossless x x
  have ⟨_, _, _, _, hback, _⟩ := escape_lossless x' x'
  rw [hx] at hs hd
  exact ⟨hx, hd, hs, hback hs, hm, (he _ hm).2⟩

end Phrasebook.Markup
