import Phrasebook.Proofs.Json.Grammar
import Phrasebook.Template.Nesting

namespace Phrasebook.Template.Nesting

-- The closing mark is not found in the text, and the search goes on behind it at another depth.
def Passes (closing : List Char) (n : Nesting) (text : List Char) (n' : Nesting) : Prop :=
  ∀ rest, close? closing n (text ++ rest) =
    (close? closing n' rest).map fun (content, rest) => (text ++ content, rest)

def Hides (closing : List Char) (n : Nesting) (c : Char) : Prop :=
  n.mayClose c → ∃ d rest, closing = d :: rest ∧ d ≠ c

variable {closing text text' : List Char} {n n' n'' : Nesting} {c : Char} {d : Nat}

theorem hides_of_ne (h : n ≠ {}) : Hides closing n c := by
  intro hm
  simp [mayClose, h] at hm

theorem hides_of_opening (h : c = '"' ∨ c = '\x7b' ∨ c = '[') : Hides closing n c := by
  intro hm
  rcases h with rfl | rfl | rfl <;> simp [mayClose] at hm

namespace Passes

theorem nil : Passes closing n [] n := by
  intro rest
  simp

theorem append (h : Passes closing n text n') (h' : Passes closing n' text' n'') :
    Passes closing n (text ++ text') n'' := by
  intro rest
  rw [List.append_assoc, h, h', Option.map_map]
  congr 1
  funext
  simp

theorem cons (hc : Hides closing n c) (h : Passes closing (n.step c) text n') :
    Passes closing n (c :: text) n' := by
  intro rest
  have ha : (if n.mayClose c then Text.after? closing (c :: (text ++ rest)) else none) = none := by
    split
    case isFalse => rfl
    case isTrue hm =>
      obtain ⟨d, closing, rfl, hd⟩ := hc hm
      exact if_neg hd
  rw [List.cons_append]
  simp only [close?, ha, h rest, Option.map_map]
  rfl

theorem loop (h : ∀ c ∈ text, Hides closing n c ∧ n.step c = n) : Passes closing n text n := by
  induction text
  case nil => exact nil
  case cons c text ih =>
    obtain ⟨⟨hc, hs⟩, h⟩ := List.forall_mem_cons.1 h
    exact cons hc (hs.symm ▸ ih h)

theorem close?_eq (h : Passes (c :: closing) n text {}) (hc : mayClose {} c) (rest : List Char) :
    close? (c :: closing) n (text ++ (c :: closing) ++ rest) = some (text, rest) := by
  have ha : Text.after? (c :: closing) (c :: (closing ++ rest)) = some rest :=
    Text.after?_eq_some_iff.2 rfl
  have he : close? (c :: closing) {} (c :: closing ++ rest) = some ([], rest) := by
    simp [close?, hc, ha]
  rw [List.append_assoc, h, he]
  simp

end Passes

theorem passes_inside (h : ∀ c ∈ text, c ≠ '"' ∧ c ≠ '\\') :
    Passes closing ⟨.inside, d⟩ text ⟨.inside, d⟩ :=
  .loop fun c hc => ⟨hides_of_ne (by simp), by simp [step, h c hc]⟩

theorem passes_escape (h : Passes closing ⟨.inside, d⟩ text ⟨.inside, d⟩) :
    Passes closing ⟨.inside, d⟩ ('\\' :: c :: text) ⟨.inside, d⟩ :=
  .cons (hides_of_ne (by simp)) (.cons (hides_of_ne (by simp [step])) h)

end Phrasebook.Template.Nesting

namespace Phrasebook.Json

open Template Nesting

variable {closing text rest : List Char} {s : List Symbol} {n : Nesting} {d : Nat}

theorem Hex.passes {digits : List Char} {k : Nat} (h : Hex digits k) :
    Passes closing ⟨.inside, d⟩ digits ⟨.inside, d⟩ := by
  refine passes_inside fun c hc => ?_
  have ⟨i, hi⟩ : ∃ i, digit? c = some i := by
    cases h
    simp only [List.mem_cons, List.not_mem_nil, or_false] at hc
    rcases hc with rfl | rfl | rfl | rfl
    all_goals exact ⟨_, ‹_›⟩
  constructor
  all_goals
    rintro rfl
    cases hi

theorem Spelling.passes (h : Spelling text s) :
    Passes closing ⟨.inside, d⟩ text ⟨.inside, d⟩ := by
  induction h
  case nil => exact .nil
  case plain c text s hq hb _ _ ih =>
    have hc : Passes closing ⟨.inside, d⟩ [c] ⟨.inside, d⟩ := passes_inside (by simp [hq, hb])
    exact hc.append ih
  case short ih => exact passes_escape ih
  case unit hd _ _ ih => exact passes_escape (hd.passes.append ih)
  case pair hd _ hd' _ _ ih =>
    exact passes_escape (hd.passes.append (passes_escape (hd'.passes.append ih)))

theorem Spelling.passes_quoted (h : Spelling text s)
    (hr : Passes closing ⟨.outside, d⟩ rest n) :
    Passes closing ⟨.outside, d⟩ ('"' :: (text ++ '"' :: rest)) n :=
  .cons (hides_of_opening (.inl rfl)) <| h.passes.append <| .cons (hides_of_ne (by simp)) hr

def Flat (text : List Char) : Prop :=
  ∀ c ∈ text, c ∉ ['"', '\x7b', '\x7d', '[', ']']

theorem Flat.passes (h : Flat text) : Passes closing ⟨.outside, d + 1⟩ text ⟨.outside, d + 1⟩ := by
  refine .loop fun c hc => ⟨hides_of_ne (by simp), ?_⟩
  have hc := h c hc
  simp only [List.mem_cons, List.not_mem_nil, or_false, not_or] at hc
  simp [step, hc]

theorem Blank.flat (h : Blank text) : Flat text := by
  intro c hc
  rcases isSpace_cases (h c hc) with rfl | rfl | rfl | rfl <;> decide

theorem Numeral.flat {v : Value} (h : Numeral text v) : Flat text := by
  intro c hc hm
  have h := h.isDigit_or_mark c hc
  simp only [List.mem_cons, List.not_mem_nil, or_false] at hm
  rcases hm with rfl | rfl | rfl | rfl | rfl <;> simp at h

theorem flat_of_word {v : Value} (h : (text, v) ∈ words) : Flat text := by
  simp only [words, List.mem_cons, Prod.mk.injEq, List.not_mem_nil, or_false] at h
  rcases h with ⟨rfl, _⟩ | ⟨rfl, _⟩ | ⟨rfl, _⟩ | ⟨rfl, _⟩ | ⟨rfl, _⟩ | ⟨rfl, _⟩
  all_goals simp [Flat]

theorem passes_open {c : Char} (hc : c = '\x7b' ∨ c = '[')
    (h : Passes closing ⟨.outside, d + 1⟩ text n) : Passes closing ⟨.outside, d⟩ (c :: text) n := by
  refine .cons (hides_of_opening (.inr hc)) ?_
  rcases hc with rfl | rfl <;> exact h

theorem passes_close {c : Char} (hc : c = '\x7d' ∨ c = ']') :
    Passes closing ⟨.outside, d + 1⟩ [c] ⟨.outside, d⟩ := by
  refine .cons (hides_of_ne (by simp)) ?_
  rcases hc with rfl | rfl <;> exact .nil

theorem passes_comma (h : Passes closing ⟨.outside, d + 1⟩ text n) :
    Passes closing ⟨.outside, d + 1⟩ (',' :: text) n :=
  .cons (hides_of_ne (by simp)) h

theorem passes_name {name w w' : List Char} (hs : Spelling name s) (hw : Blank w)
    (hw' : Blank w') (h : Passes closing ⟨.outside, d + 1⟩ text n) :
    Passes closing ⟨.outside, d + 1⟩ ('"' :: (name ++ '"' :: (w ++ ':' :: (w' ++ text)))) n :=
  hs.passes_quoted <| hw.flat.passes.append <| .cons (hides_of_ne (by simp)) <|
    hw'.flat.passes.append h

-- Of the brackets in the text of a value each is closed; what stands for the members of an object
-- or the items of a list closes one more.
def Part.Passed (closing text : List Char) : Part → Prop
  | .value _ => ∀ d, Passes closing ⟨.outside, d + 1⟩ text ⟨.outside, d + 1⟩
  | .members _ | .items _ => ∀ d, Passes closing ⟨.outside, d + 1⟩ text ⟨.outside, d⟩

theorem Spells.passed {part : Part} (h : Spells text part) : part.Passed closing text := by
  induction h
  case string h => exact fun d => h.passes_quoted .nil
  case number h => exact fun d => h.flat.passes
  case word h => exact fun d => (flat_of_word h).passes
  case emptyObject hw =>
    exact fun d => passes_open (.inl rfl) (hw.flat.passes.append (passes_close (.inl rfl)))
  case emptyList hw =>
    exact fun d => passes_open (.inr rfl) (hw.flat.passes.append (passes_close (.inr rfl)))
  case object hw _ ih => exact fun d => passes_open (.inl rfl) (hw.flat.passes.append (ih _))
  case list hw _ ih => exact fun d => passes_open (.inr rfl) (hw.flat.passes.append (ih _))
  case lastMember hs h₁ h₂ _ h₃ ih =>
    exact fun d => passes_name hs h₁ h₂ <| (ih d).append <|
      h₃.flat.passes.append (passes_close (.inl rfl))
  case member hs h₁ h₂ _ h₃ h₄ _ ih ihs =>
    exact fun d => passes_name hs h₁ h₂ <| (ih d).append <| h₃.flat.passes.append <|
      passes_comma <| h₄.flat.passes.append (ihs d)
  case lastItem hw ih =>
    exact fun d => (ih d).append (hw.flat.passes.append (passes_close (.inr rfl)))
  case item hw hw' _ ih ihs =>
    exact fun d => (ih d).append <| hw.flat.passes.append <| passes_comma <|
      hw'.flat.passes.append (ihs d)

theorem Spells.passes_of_object {ms : List (List Symbol × Tree)}
    (h : Spells text (.value (.object ms))) :
    Passes closing ⟨.outside, d⟩ text ⟨.outside, d⟩ := by
  obtain ⟨w, rest, rfl, hw, rfl | h⟩ := h.exists_of_object
  case inl => exact passes_open (.inl rfl) (hw.flat.passes.append (passes_close (.inl rfl)))
  case inr => exact passes_open (.inl rfl) (hw.flat.passes.append (h.passed d))

end Phrasebook.Json
