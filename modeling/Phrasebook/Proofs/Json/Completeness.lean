import Mathlib.Data.List.TakeDrop
import Phrasebook.Proofs.Json.Grammar

namespace Phrasebook.Json

theorem skip_of_head {text : List Char} (h : ∀ c ∈ text.head?, isSpace c = false) :
    skip text = text := by
  cases text
  case nil => rfl
  case cons c text => exact List.dropWhile_cons_of_neg (by simp [h c rfl])

theorem skip_append {w text : List Char} (hw : Blank w)
    (h : ∀ c ∈ text.head?, isSpace c = false) : skip (w ++ text) = text := by
  rw [skip, List.dropWhile_append_of_pos hw]
  exact skip_of_head h

theorem skip_append_cons {w text : List Char} {c : Char} (hw : Blank w) (hc : isSpace c = false) :
    skip (w ++ c :: text) = c :: text :=
  skip_append hw (by simp [hc])

theorem head_of_blank {p : Char → Prop} {w text : List Char} (hw : Blank w)
    (hs : ∀ c, isSpace c → p c) (ht : ∀ c ∈ text.head?, p c) : ∀ c ∈ (w ++ text).head?, p c := by
  cases w
  case nil => exact ht
  case cons d w => simpa using hs d (hw d List.mem_cons_self)

section Strings

variable {digits text rest : List Char} {s : List Symbol} {n : Nat}

theorem Hex.length_eq (h : Hex digits n) : digits.length = 4 := by
  cases h
  rfl

theorem unit_of_hex (h : Hex digits n) (hr : rest ≠ []) : unit (digits ++ rest) = .ok n := by
  obtain ⟨ha, hb, hc, hd⟩ := h
  obtain ⟨_, _, rfl⟩ := List.exists_cons_of_ne_nil hr
  simp [unit, ha, hb, hc, hd]

theorem Spelling.exists_hex (h : Spelling ('\\' :: 'u' :: text) s) :
    ∃ digits n rest, Hex digits n ∧ text = digits ++ rest := by
  generalize ht : '\\' :: 'u' :: text = whole at h
  cases h <;> cases ht
  case plain hb _ _ => exact absurd rfl hb
  case short hc _ => cases hc
  case unit hd _ _ => exact ⟨_, _, _, hd, rfl⟩
  case pair hd _ _ _ _ => exact ⟨_, _, _, hd, rfl⟩

theorem Spelling.exists_of_mark {more : List Char} (h : Spelling text s)
    (ht : text ++ '"' :: rest = '\\' :: 'u' :: more) :
    ∃ digits n body, Hex digits n ∧ text = '\\' :: 'u' :: (digits ++ body) ∧
      more = digits ++ (body ++ '"' :: rest) := by
  rcases text with _ | ⟨c, _ | ⟨d, text⟩⟩
  case nil => cases ht
  case cons.nil => cases ht
  case cons.cons =>
    obtain ⟨rfl, rfl, rfl⟩ : c = '\\' ∧ d = 'u' ∧ text ++ '"' :: rest = more := by simpa using ht
    obtain ⟨digits, n, body, hd, rfl⟩ := h.exists_hex
    exact ⟨digits, n, body, hd, rfl, by simp⟩

theorem codePoint_of_unit (hd : Hex digits n) (hn : High n → ¬ BeginsLow text)
    (h : Spelling text s) :
    codePoint (digits ++ (text ++ '"' :: rest)) = .ok (ofUnit n, 4) := by
  have hu : unit (digits ++ (text ++ '"' :: rest)) = .ok n := unit_of_hex hd (by simp)
  have hdrop : (digits ++ (text ++ '"' :: rest)).drop 4 = text ++ '"' :: rest :=
    List.drop_left' hd.length_eq
  simp only [codePoint, hu, hdrop, bind, Except.bind]
  split
  case h_2 => rfl
  case h_1 more ht =>
    split
    case isFalse => rfl
    case isTrue hh =>
      obtain ⟨digits', m, body, hd', rfl, rfl⟩ := h.exists_of_mark ht
      have hm : ¬ Low m := fun hm => hn ⟨hh.1, hh.2.1⟩ ⟨digits', m, body, hd', hm, rfl⟩
      have hu' : unit (digits' ++ (body ++ '"' :: rest)) = .ok m := unit_of_hex hd' (by simp)
      simp only [hu']
      exact if_neg hm

theorem codePoint_of_pair {digits' : List Char} {m : Nat} (hd : Hex digits n) (hn : High n)
    (hd' : Hex digits' m) (hm : Low m) (hr : rest ≠ []) :
    codePoint (digits ++ '\\' :: 'u' :: (digits' ++ rest)) = .ok (.char (joined n m), 10) := by
  have hu : unit (digits ++ '\\' :: 'u' :: (digits' ++ rest)) = .ok n := unit_of_hex hd (by simp)
  have hdrop : (digits ++ '\\' :: 'u' :: (digits' ++ rest)).drop 4 =
      '\\' :: 'u' :: (digits' ++ rest) := List.drop_left' hd.length_eq
  have hlen : 4 < (digits' ++ rest).length := by
    have := List.length_pos_iff.2 hr
    simp only [List.length_append, hd'.length_eq]
    omega
  have hpair : 0xD800 ≤ n ∧ n < 0xDC00 ∧ 4 < (digits' ++ rest).length := ⟨hn.1, hn.2, hlen⟩
  simp only [codePoint, hu, hdrop, bind, Except.bind, if_pos hpair, unit_of_hex hd' hr]
  exact if_pos hm

theorem string_append (covered rest : List Char) :
    string covered.length (covered ++ rest) = string 0 rest := by
  induction covered
  case nil => rfl
  case cons ih => exact ih

theorem string_of_escaped {covered : List Char} {d : Symbol}
    (he : escaped (covered ++ (text ++ '"' :: rest)) = .ok (d, covered.length))
    (h : string 0 (text ++ '"' :: rest) = .ok (s, rest)) :
    string 0 ('\\' :: (covered ++ (text ++ '"' :: rest))) = .ok (d :: s, rest) := by
  simp [string, he, bind, Except.bind, string_append, h, pure, Except.pure]

theorem escaped_of_codePoint {d : Symbol} (h : codePoint text = .ok (d, n)) :
    escaped ('u' :: text) = .ok (d, n + 1) := by
  simp [escaped, h, Except.map]

theorem string_of_spelling (h : Spelling text s) (rest : List Char) :
    string 0 (text ++ '"' :: rest) = .ok (s, rest) := by
  induction h
  case nil => rfl
  case plain c text s hq hb hc h ih =>
    simp [string, hq, hb, Nat.not_lt.2 hc, ih, bind, Except.bind, pure, Except.pure]
  case short c d text s hc h ih =>
    have hu : c ≠ 'u' := by
      rintro rfl
      cases hc
    exact @string_of_escaped text rest s [c] (.char d) (by simp [escaped, hu, hc]) ih
  case unit digits text s n hd hn h ih =>
    have he : escaped ('u' :: digits ++ (text ++ '"' :: rest)) =
        .ok (ofUnit n, ('u' :: digits).length) := by
      rw [List.length_cons, hd.length_eq]
      exact escaped_of_codePoint (codePoint_of_unit hd hn h)
    simpa using string_of_escaped he ih
  case pair digits digits' text s n m hd hn hd' hm h ih =>
    have he : escaped ('u' :: (digits ++ '\\' :: 'u' :: digits') ++ (text ++ '"' :: rest)) =
        .ok (.char (joined n m), ('u' :: (digits ++ '\\' :: 'u' :: digits')).length) := by
      simp only [List.length_cons, List.length_append, hd.length_eq, hd'.length_eq]
      simpa using escaped_of_codePoint
        (@codePoint_of_pair digits (text ++ '"' :: rest) n digits' m hd hn hd' hm (by simp))
    simpa using string_of_escaped he ih

end Strings

def Stops (text : List Char) : Prop :=
  ∀ c ∈ text.head?, ¬ c.isDigit ∧ c ≠ '.' ∧ c ≠ 'e' ∧ c ≠ 'E'

section Numbers

variable {ds f fs e text rest : List Char}

theorem digits_append (hd : ∀ c ∈ ds, c.isDigit) (hr : ∀ c ∈ rest.head?, ¬ c.isDigit) :
    digits (ds ++ rest) = (ds, rest) := by
  have hr : rest.takeWhile Char.isDigit = [] ∧ rest.dropWhile Char.isDigit = rest := by
    cases rest
    case nil => exact ⟨rfl, rfl⟩
    case cons c rest =>
      have hc := hr c rfl
      exact ⟨List.takeWhile_cons_of_neg hc, List.dropWhile_cons_of_neg hc⟩
  simp [digits, List.span_eq_takeWhile_dropWhile, List.takeWhile_append_of_pos hd,
    List.dropWhile_append_of_pos hd, hr]

theorem whole?_append (h : Whole ds) (hr : ∀ c ∈ rest.head?, ¬ c.isDigit) :
    whole? (ds ++ rest) = some (ds, rest) := by
  cases h
  case zero => rfl
  case positive hd hz =>
    obtain ⟨c, ds, rfl⟩ := List.exists_cons_of_ne_nil hd.ne_nil
    have hc : c ≠ '0' := by simpa using hz
    have hs := digits_append hd.isDigit hr
    unfold whole?
    split
    case h_1 heq => exact absurd (List.cons.inj heq).1 hc
    case h_2 => rw [hs]

theorem fraction_append (h : Fraction f fs)
    (hr : ∀ c ∈ rest.head?, ¬ c.isDigit ∧ c ≠ '.') : fraction (f ++ rest) = (fs, rest) := by
  cases h
  case none =>
    rw [List.nil_append]
    unfold fraction
    split
    case h_1 => exact absurd rfl (hr '.' rfl).2
    case h_2 => rfl
  case point hd =>
    have hs := digits_append hd.isDigit fun c hc => (hr c hc).1
    simp [fraction, hs, hd.ne_nil]

theorem signed_append {sign : List Char} {negative : Bool} (h : Sign sign negative)
    (hr : ∀ c ∈ rest.head?, c.isDigit) : signed (sign ++ rest) = (negative, rest) := by
  cases h
  case none =>
    rw [List.nil_append]
    unfold signed
    split
    case h_1 | h_2 => cases hr _ rfl
    case h_3 => rfl
  all_goals rfl

theorem exponent?_append {x : Option Int} (h : Exponent e x) (hr : Stops rest) :
    exponent? (e ++ rest) = x.map (·, rest) := by
  cases h
  case none =>
    rw [List.nil_append]
    unfold exponent?
    split
    case h_1 c _ => exact if_neg (by simpa using (hr c rfl).2.2)
    case h_2 => rfl
  case mark c sign ds negative hc hs hd =>
    have hd' : ∀ c ∈ (ds ++ rest).head?, c.isDigit := by
      obtain ⟨c, ds, rfl⟩ := List.exists_cons_of_ne_nil hd.ne_nil
      simp [hd.isDigit c List.mem_cons_self]
    have hspan := digits_append hd.isDigit fun c hc => (hr c hc).1
    have hsign := signed_append hs hd'
    rw [List.cons_append, List.append_assoc]
    simp only [exponent?, if_pos hc, hsign, hspan]
    split
    case h_1 heq => exact absurd (congrArg Prod.fst heq) hd.ne_nil
    case h_2 heq =>
      cases heq
      rfl

theorem minus_append {sign : List Char} {negative : Bool} (h : Sign sign negative)
    (hp : sign ≠ ['+']) (hr : ∀ c ∈ text.head?, c.isDigit) :
    minus (sign ++ text) = (negative, text) := by
  cases h
  case none =>
    rw [List.nil_append]
    unfold minus
    split
    case h_1 => cases hr _ rfl
    case h_2 => rfl
  case plus => exact absurd rfl hp
  case minus => rfl

theorem number_of_numeral {k : Conversion} {v : Value} (h : Numeral text v) (hr : Stops rest) :
    number k (text ++ rest) = (do
      forM v.integers (check k)
      return (v, rest)) := by
  obtain @⟨sign, ds, f, fs, e, negative, x, hs, hp, hd, hf, he⟩ := h
  have he' : ∀ c ∈ (e ++ rest).head?, ¬ c.isDigit ∧ c ≠ '.' := by
    cases he
    case none => exact fun c hc => ⟨(hr c hc).1, (hr c hc).2.1⟩
    case mark hc _ _ => rcases hc with rfl | rfl <;> simp
  have hf' : ∀ c ∈ (f ++ (e ++ rest)).head?, ¬ c.isDigit := by
    cases hf
    case none => exact fun c hc => (he' c hc).1
    case point => simp
  have hd' : ∀ c ∈ (ds ++ (f ++ (e ++ rest))).head?, c.isDigit := by
    cases hd
    case zero => simp
    case positive hd _ =>
      obtain ⟨c, ds, rfl⟩ := List.exists_cons_of_ne_nil hd.ne_nil
      simp [hd.isDigit c List.mem_cons_self]
  simp only [List.append_assoc, number, minus_append hs hp hd', whole?_append hd hf',
    fraction_append hf he', exponent?_append he hr]
  cases x
  case some => rfl
  case none =>
    cases he
    cases fs
    case cons => rfl
    case nil => simp [numeral, Value.integers]

theorem word?_of_mem {v : Value} (h : (text, v) ∈ words) :
    word? (text ++ rest) = some (v, rest) := by
  simp only [words, List.mem_cons, Prod.mk.injEq, List.not_mem_nil, or_false] at h
  rcases h with ⟨rfl, rfl⟩ | ⟨rfl, rfl⟩ | ⟨rfl, rfl⟩ | ⟨rfl, rfl⟩ | ⟨rfl, rfl⟩ | ⟨rfl, rfl⟩
  all_goals rfl

theorem word?_of_numeral {v : Value} (h : Numeral text v) : word? (text ++ rest) = none := by
  obtain ⟨sign, c, more, hs, hc, rfl⟩ := h.exists_append_cons
  have hn : ∀ d, ¬ d.isDigit → d ≠ c := fun d hd heq => hd (heq ▸ hc)
  rcases hs with rfl | rfl
  all_goals simp [word?, words, Text.after?, hn]

end Numbers

theorem stops_append {w text : List Char} (hw : Blank w) (h : Stops text) :
    Stops (w ++ text) := by
  refine head_of_blank hw (fun c hc => ?_) h
  rcases isSpace_cases hc with rfl | rfl | rfl | rfl <;> decide

theorem stops_append_cons {w text : List Char} {c : Char} (hw : Blank w)
    (hc : ¬ c.isDigit ∧ c ≠ '.' ∧ c ≠ 'e' ∧ c ≠ 'E') : Stops (w ++ c :: text) :=
  stops_append hw (by simpa [Stops] using hc)

-- What the reader makes of a text, whatever follows it. It takes the whole numbers in their order,
-- and ends with the first one that is too long.
def Part.ReadFrom (k : Conversion) (text : List Char) : Part → Prop
  | .value t => ∀ fuel rest, 2 * text.length ≤ fuel → Stops rest →
      Json.value k fuel (text ++ rest) = (do
        forM t.integers (check k)
        return (t.value k, rest))
  | .members ms => ∀ fuel found rest, 2 * text.length ≤ fuel →
      Json.members k fuel found (text ++ rest) = (do
        forM (Tree.integersOfMembers ms) (check k)
        return (Members.putAll found (Tree.pairs k ms), rest))
  | .items ts => ∀ fuel rest, 2 * text.length ≤ fuel →
      Json.items k fuel (text ++ rest) = (do
        forM (Tree.integersOfItems ts) (check k)
        return (Tree.values k ts, rest))

section Parts

variable {k : Conversion} {name w₁ w₂ text w₃ rest : List Char} {s : List Symbol} {t : Tree}
  {v : Value} {fuel : Nat}

theorem value_of_numeral (h : Numeral text v) (hr : Stops rest) :
    value k (fuel + 1) (text ++ rest) = (do
      forM v.integers (check k)
      return (v, rest)) := by
  have hw : word? (text ++ rest) = none := word?_of_numeral h
  have hn := @number_of_numeral _ rest k v h hr
  obtain ⟨sign, c, more, hs, hc, rfl⟩ := h.exists_append_cons
  generalize ht : sign ++ c :: more ++ rest = whole at hw hn ⊢
  have hd : ∃ d rest, whole = d :: rest ∧ d ≠ '"' ∧ d ≠ '\x7b' ∧ d ≠ '[' := by
    rcases hs with rfl | rfl
    case inr => exact ⟨_, _, ht.symm, by decide⟩
    case inl =>
      refine ⟨_, _, ht.symm, ?_, ?_, ?_⟩
      all_goals
        rintro rfl
        cases hc
  obtain ⟨d, rest, rfl, hq, hb, hs⟩ := hd
  unfold value
  split
  case h_1 heq => exact absurd (List.cons.inj heq).1 hq
  case h_2 heq => exact absurd (List.cons.inj heq).1 hb
  case h_3 heq => exact absurd (List.cons.inj heq).1 hs
  case h_4 => rw [hw, hn]

theorem value_of_word (h : (text, v) ∈ words) :
    value k (fuel + 1) (text ++ rest) = (do
      forM v.integers (check k)
      return (v, rest)) := by
  have hw := @word?_of_mem text rest v h
  simp only [words, List.mem_cons, Prod.mk.injEq, List.not_mem_nil, or_false] at h
  rcases h with ⟨rfl, rfl⟩ | ⟨rfl, rfl⟩ | ⟨rfl, rfl⟩ | ⟨rfl, rfl⟩ | ⟨rfl, rfl⟩ | ⟨rfl, rfl⟩
  all_goals rfl

theorem Spells.exists_not_isSpace {part : Part} (h : Spells text part) :
    ∃ c rest, text = c :: rest ∧ isSpace c = false := by
  cases part
  case value =>
    obtain ⟨c, rest, ht, hc, _⟩ := h.exists_cons
    exact ⟨c, rest, ht, hc⟩
  case members =>
    obtain ⟨rest, ht⟩ := h.exists_of_members
    exact ⟨_, rest, ht, rfl⟩
  case items =>
    obtain ⟨c, rest, ht, hc, _⟩ := h.exists_of_items
    exact ⟨c, rest, ht, hc⟩

theorem Spells.skip_append {part : Part} (h : Spells text part) (hw : Blank w₁)
    (rest : List Char) : skip (w₁ ++ (text ++ rest)) = text ++ rest := by
  obtain ⟨c, more, rfl, hc⟩ := h.exists_not_isSpace
  exact skip_append_cons hw hc

theorem Spells.exists_fuel {part : Part} (h : Spells text part) (hf : 2 * text.length ≤ fuel) :
    ∃ rest, fuel = rest + 1 ∧ 2 * text.length ≤ rest + 1 := by
  obtain ⟨c, more, rfl, _⟩ := h.exists_not_isSpace
  rw [List.length_cons] at hf ⊢
  exact ⟨fuel - 1, by omega, by omega⟩

theorem value_of_members {ms : List (List Symbol × Tree)} (h : Spells text (.members ms))
    (hw : Blank w₁) :
    value k (fuel + 1) ('\x7b' :: (w₁ ++ (text ++ rest))) = (do
      let (ms, rest) ← members k fuel [] (text ++ rest)
      return (.object ms, rest)) := by
  have hs := h.skip_append hw rest
  obtain ⟨more, rfl⟩ := h.exists_of_members
  simp only [List.cons_append] at hs ⊢
  simp [value, hs]

theorem value_of_items {ts : List Tree} (h : Spells text (.items ts)) (hw : Blank w₁) :
    value k (fuel + 1) ('[' :: (w₁ ++ (text ++ rest))) = (do
      let (vs, rest) ← items k fuel (text ++ rest)
      return (.list vs, rest)) := by
  have hs := h.skip_append hw rest
  obtain ⟨c, more, rfl, _, hb⟩ := h.exists_of_items
  simp only [List.cons_append] at hs ⊢
  simp [value, hs, hb]

theorem members_of_member (hs : Spelling name s) (h₁ : Blank w₁) (h₂ : Blank w₂)
    (ht : Spells text (.value t)) (found : Members Value) :
    members k (fuel + 1) found ('"' :: (name ++ '"' :: (w₁ ++ ':' :: (w₂ ++ (text ++ rest))))) =
      (do
        let (v, rest) ← value k fuel (text ++ rest)
        match skip rest with
        | '\x7d' :: rest => return (found.put (Json.text k s) v, rest)
        | ',' :: text => members k fuel (found.put (Json.text k s) v) (skip text)
        | _ => .error .comma) := by
  have hname := string_of_spelling hs (w₁ ++ ':' :: (w₂ ++ (text ++ rest)))
  have hcolon : skip (w₁ ++ ':' :: (w₂ ++ (text ++ rest))) = ':' :: (w₂ ++ (text ++ rest)) :=
    skip_append_cons h₁ rfl
  simp only [members, hname, bind, Except.bind, hcolon, ht.skip_append h₂ rest]
  rfl

end Parts

theorem Spells.readFrom {text : List Char} {part : Part} (h : Spells text part)
    (k : Conversion) : part.ReadFrom k text := by
  induction h
  case string text s h =>
    intro fuel rest hf _
    obtain ⟨fuel, rfl, _⟩ := (Spells.string h).exists_fuel hf
    have hs := string_of_spelling h rest
    simp [value, hs, bind, Except.bind, pure, Except.pure, Tree.integers, Tree.value]
  case number text v h =>
    intro fuel rest hf hr
    obtain ⟨fuel, rfl, _⟩ := (Spells.number h).exists_fuel hf
    exact value_of_numeral h hr
  case word text v h =>
    intro fuel rest hf _
    obtain ⟨fuel, rfl, _⟩ := (Spells.word h).exists_fuel hf
    exact value_of_word h
  case emptyObject w hw =>
    intro fuel rest hf _
    obtain ⟨fuel, rfl, _⟩ := (Spells.emptyObject hw).exists_fuel hf
    have hs : skip (w ++ '\x7d' :: rest) = '\x7d' :: rest := skip_append_cons hw rfl
    simp [value, hs, Tree.integers, Tree.integersOfMembers, Tree.value, Tree.pairs, Members.putAll]
    rfl
  case object w text ms hw h ih =>
    intro fuel rest hf _
    obtain ⟨fuel, rfl, hf⟩ := (Spells.object hw h).exists_fuel hf
    have hm := ih fuel [] rest (by simp at hf; omega)
    rw [List.cons_append, List.append_assoc, value_of_members h hw, hm, bind_assoc]
    rfl
  case emptyList w hw =>
    intro fuel rest hf _
    obtain ⟨fuel, rfl, _⟩ := (Spells.emptyList hw).exists_fuel hf
    have hs : skip (w ++ ']' :: rest) = ']' :: rest := skip_append_cons hw rfl
    simp [value, hs, Tree.integers, Tree.integersOfItems, Tree.value, Tree.values]
    rfl
  case list w text ts hw h ih =>
    intro fuel rest hf _
    obtain ⟨fuel, rfl, hf⟩ := (Spells.list hw h).exists_fuel hf
    have hi := ih fuel rest (by simp at hf; omega)
    rw [List.cons_append, List.append_assoc, value_of_items h hw, hi, bind_assoc]
    rfl
  case lastMember name w₁ w₂ text w₃ s t hs h₁ h₂ ht h₃ ih =>
    intro fuel found rest hf
    obtain ⟨fuel, rfl, hf⟩ := (Spells.lastMember hs h₁ h₂ ht h₃).exists_fuel hf
    have hr := ih fuel (w₃ ++ '\x7d' :: rest) (by simp at hf; omega)
      (stops_append_cons h₃ (by decide))
    have hend : skip (w₃ ++ '\x7d' :: rest) = '\x7d' :: rest := skip_append_cons h₃ rfl
    have hm := @members_of_member k _ _ _ _ (w₃ ++ '\x7d' :: rest) _ _ fuel hs h₁ h₂ ht found
    simp only [hr, bind_assoc, pure_bind, hend] at hm
    simpa [Tree.integersOfMembers, Tree.pairs, Members.putAll] using hm
  case member name w₁ w₂ text w₃ w₄ more s t ms hs h₁ h₂ ht h₃ h₄ hms ih ihs =>
    intro fuel found rest hf
    obtain ⟨fuel, rfl, hf⟩ := (Spells.member hs h₁ h₂ ht h₃ h₄ hms).exists_fuel hf
    have hr := ih fuel (w₃ ++ ',' :: (w₄ ++ (more ++ rest))) (by simp at hf; omega)
      (stops_append_cons h₃ (by decide))
    have hmore := ihs fuel (found.put (Json.text k s) (t.value k)) rest (by simp at hf; omega)
    have hend : skip (w₃ ++ ',' :: (w₄ ++ (more ++ rest))) = ',' :: (w₄ ++ (more ++ rest)) :=
      skip_append_cons h₃ rfl
    have hm := @members_of_member k _ _ _ _ (w₃ ++ ',' :: (w₄ ++ (more ++ rest))) _ _ fuel hs h₁ h₂
      ht found
    simp only [hr, bind_assoc, pure_bind, hend, hms.skip_append h₄ rest, hmore] at hm
    simpa [Tree.integersOfMembers, Tree.pairs, Members.putAll, List.forM_append] using hm
  case lastItem text w t ht hw ih =>
    intro fuel rest hf
    obtain ⟨fuel, rfl, hf⟩ := (Spells.lastItem ht hw).exists_fuel hf
    have hr := ih fuel (w ++ ']' :: rest) (by simp at hf; omega) (stops_append_cons hw (by decide))
    have hend : skip (w ++ ']' :: rest) = ']' :: rest := skip_append_cons hw rfl
    simp [items, hr, hend, Tree.integersOfItems, Tree.values]
  case item text w w' more t ts ht hw hw' hts ih ihs =>
    intro fuel rest hf
    obtain ⟨fuel, rfl, hf⟩ := (Spells.item ht hw hw' hts).exists_fuel hf
    have hr := ih fuel (w ++ ',' :: (w' ++ (more ++ rest))) (by simp at hf; omega)
      (stops_append_cons hw (by decide))
    have hmore := ihs fuel rest (by simp at hf; omega)
    have hend : skip (w ++ ',' :: (w' ++ (more ++ rest))) = ',' :: (w' ++ (more ++ rest)) :=
      skip_append_cons hw rfl
    simp [items, hr, hend, hts.skip_append hw' rest, hmore, Tree.integersOfItems, Tree.values,
      List.forM_append]

-- A text is read as the tree that it stands for, if no whole number in it is too long. Spaces may
-- stand around it.
theorem read_of_spells {text w w' : List Char} {t : Tree} (h : Spells text (.value t))
    (hw : Blank w) (hw' : Blank w') (k : Conversion) :
    read (String.ofList (w ++ (text ++ w'))) k = (do
      forM t.integers (check k)
      return t.value k) := by
  obtain ⟨c, more, rfl, hc, _, hm⟩ := h.exists_cons
  have hskip : skip (w ++ (c :: more ++ w')) = c :: more ++ w' := skip_append_cons hw hc
  have hskip' : skip w' = [] := by simpa using @skip_append w' [] hw' (by simp)
  have hstop : Stops w' := by simpa using @stops_append w' [] hw' (by simp [Stops])
  have hv := h.readFrom k (fuel (w ++ (c :: more ++ w'))) w' (by simp [fuel]; omega) hstop
  have hmark : ∀ d ∈ (w ++ (c :: more ++ w')).head?, d ≠ '\uFEFF' := by
    refine head_of_blank hw (fun d hd => ?_) (by simpa using hm)
    rcases isSpace_cases hd with rfl | rfl | rfl | rfl <;> decide
  unfold read
  rw [String.toList_ofList]
  split
  case h_1 heq => exact absurd rfl (hmark _ (heq ▸ rfl))
  case h_2 =>
    simp only [hskip, hv, bind_assoc, pure_bind, hskip']
    rfl

end Phrasebook.Json
