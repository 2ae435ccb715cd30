import Phrasebook.Text.Cut

namespace Phrasebook.Template

-- How marked parts begin, and how the end of one is found.
structure Marking where
  opening : List Char
  closing : List Char
  -- What stands before and after the closing mark, if there is one.
  close : List Char → Option (List Char × List Char)
  closing_ne : closing ≠ []
  eq_of_close : ∀ {text content rest},
    close text = some (content, rest) → text = content ++ closing ++ rest
  -- Where the closing mark is found does not depend on what follows it.
  close_append : ∀ {text content rest},
    close text = some (content, rest) →
      ∀ more, close (content ++ closing ++ more) = some (content, more)

structure Split where
  marked : List (List Char × List Char)
  tail : List Char
deriving DecidableEq

@[elab_as_elim]
theorem Split.consInduction {motive : Split → Prop} (plain : ∀ tail, motive ⟨[], tail⟩)
    (cons : ∀ p marked tail, motive ⟨marked, tail⟩ → motive ⟨p :: marked, tail⟩) (s : Split) :
    motive s := by
  cases s
  case mk marked tail =>
    induction marked
    case nil => exact plain tail
    case cons p marked ih => exact cons p marked tail ih

namespace Marking

variable (m : Marking)

def token (content : List Char) : List Char :=
  m.opening ++ content ++ m.closing

theorem no_token_of_no_opening {text : List Char} (h : ¬ m.opening <:+: text)
    (content : List Char) : ¬ m.token content <:+: text :=
  fun ht => h (.trans ⟨[], content ++ m.closing, by simp [token]⟩ ht)

theorem length_lt_of_close {text gap body content rest : List Char}
    (ho : Text.cut? m.opening text = some (gap, body)) (hc : m.close body = some (content, rest)) :
    rest.length < text.length := by
  have := List.length_pos_iff.2 m.closing_ne
  simp only [Text.eq_of_cut? ho, m.eq_of_close hc, List.length_append]
  omega

-- Splits a text at its marked parts, from the left. If the first opening mark is never closed, the
-- rest of the text has no marked parts.
def split (text : List Char) : Split :=
  match ho : Text.cut? m.opening text with
  | none => ⟨[], text⟩
  | some (gap, body) =>
    match hc : m.close body with
    | none => ⟨[], text⟩
    | some (content, rest) =>
      have := m.length_lt_of_close ho hc
      let s := split rest
      ⟨(gap, content) :: s.marked, s.tail⟩
termination_by text.length

end Marking

namespace Split

def text (m : Marking) (s : Split) : List Char :=
  s.marked.foldr (fun (gap, content) text => gap ++ m.token content ++ text) s.tail

theorem text_nil {m : Marking} {tail : List Char} : text m ⟨[], tail⟩ = tail :=
  rfl

theorem text_cons {m : Marking} {p : List Char × List Char}
    {marked : List (List Char × List Char)} {tail : List Char} :
    text m ⟨p :: marked, tail⟩ = p.1 ++ m.token p.2 ++ text m ⟨marked, tail⟩ :=
  rfl

def renderM {μ : Type → Type} [Monad μ] (gap content : List Char → μ (List Char)) (s : Split) :
    μ (List Char) :=
  go s.marked
where
  go : List (List Char × List Char) → μ (List Char)
    | [] => gap s.tail
    | (g, c) :: marked => do
      let before ← gap g
      let text ← content c
      let rest ← go marked
      return before ++ text ++ rest

section Render

variable {μ : Type → Type} [Monad μ] {gap content : List Char → μ (List Char)} {tail : List Char}

theorem renderM_cons {p : List Char × List Char} {marked : List (List Char × List Char)} :
    renderM gap content ⟨p :: marked, tail⟩ = do
      let before ← gap p.1
      let text ← content p.2
      let rest ← renderM gap content ⟨marked, tail⟩
      return before ++ text ++ rest := by
  -- The marked parts still to be rendered do not depend on those that were.
  have h : ∀ rest, renderM.go gap content ⟨p :: marked, tail⟩ rest =
      renderM.go gap content ⟨marked, tail⟩ rest := by
    intro rest
    induction rest
    case nil => rfl
    case cons p rest ih => simp only [renderM.go, ih]
  simp only [renderM, renderM.go, h]

end Render

end Split

theorem Marking.text_split (m : Marking) (text : List Char) : (m.split text).text m = text := by
  fun_induction m.split text with
  | case1 => rfl
  | case2 => rfl
  | case3 text gap body ho content rest hc _ s ih =>
    calc
      _ = gap ++ m.token content ++ s.text m := rfl
      _ = text := by simp [ih, s, Marking.token, Text.eq_of_cut? ho, m.eq_of_close hc]

end Phrasebook.Template
