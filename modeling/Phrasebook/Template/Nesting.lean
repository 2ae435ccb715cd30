import Phrasebook.Template.Split

namespace Phrasebook.Template

inductive Quote where
  | outside
  | inside
  -- Inside, and behind a backslash.
  | escaped
deriving DecidableEq

structure Nesting where
  quote : Quote := .outside
  depth : Nat := 0
deriving DecidableEq

namespace Nesting

-- A closing bracket that was never opened changes nothing.
def step (n : Nesting) (c : Char) : Nesting :=
  match n.quote with
  | .escaped => { n with quote := .inside }
  | .inside =>
    if c = '\\' then { n with quote := .escaped }
    else if c = '"' then { n with quote := .outside }
    else n
  | .outside =>
    if c = '"' then { n with quote := .inside }
    else if c = '\x7b' ∨ c = '[' then { n with depth := n.depth + 1 }
    else if c = '\x7d' ∨ c = ']' then { n with depth := n.depth - 1 }
    else n

def mayClose (n : Nesting) (c : Char) : Bool :=
  n == {} && c != '"' && c != '\x7b' && c != '['

-- What stands before and after the first closing mark that is outside of everything.
def close? (closing : List Char) : Nesting → List Char → Option (List Char × List Char)
  | _, [] => none
  | n, c :: text =>
    match if n.mayClose c then Text.after? closing (c :: text) else none with
    | some rest => some ([], rest)
    | none => (close? closing (n.step c) text).map fun (content, rest) => (c :: content, rest)

theorem eq_of_close? {closing text content rest : List Char} {n : Nesting}
    (h : close? closing n text = some (content, rest)) : text = content ++ closing ++ rest := by
  induction text generalizing n content with
  | nil => simp [close?] at h
  | cons c text ih =>
    rw [close?] at h
    split at h
    case h_1 ha =>
      cases h
      split at ha
      case isTrue => simpa using Text.after?_eq_some_iff.1 ha
      case isFalse => cases ha
    case h_2 =>
      have ⟨⟨_, _⟩, hc, heq⟩ := Option.map_eq_some_iff.1 h
      cases heq
      simp [ih hc]

theorem close?_append {closing text content rest : List Char} {n : Nesting} (hne : closing ≠ [])
    (h : close? closing n text = some (content, rest)) (more : List Char) :
    close? closing n (content ++ closing ++ more) = some (content, more) := by
  induction text generalizing n content with
  | nil => simp [close?] at h
  | cons c text ih =>
    rw [close?] at h
    split at h
    case h_1 ha =>
      cases h
      split at ha
      case isFalse => cases ha
      case isTrue hm =>
        obtain ⟨d, closing, rfl⟩ := List.exists_cons_of_ne_nil hne
        obtain ⟨rfl, _⟩ := List.cons.inj (Text.after?_eq_some_iff.1 ha)
        have ha' : Text.after? (c :: closing) (c :: (closing ++ more)) = some more :=
          Text.after?_eq_some_iff.2 rfl
        simp [close?, hm, ha']
    case h_2 ha =>
      have ⟨⟨front, _⟩, hc, heq⟩ := Option.map_eq_some_iff.1 h
      cases heq
      rw [eq_of_close? hc] at ha
      have ha' : (if n.mayClose c then Text.after? closing ((c :: front) ++ closing ++ more)
          else none) = none := by
        split at ha
        case isFalse hm => exact if_neg hm
        case isTrue hm => exact (if_pos hm).trans (Text.after?_eq_none_of_append ha more)
      simp only [List.cons_append] at ha' ⊢
      simp only [close?, ha', ih hc, Option.map_some]

theorem close?_of_free {c : Char} {closing content : List Char} (hm : mayClose {} c)
    (hc : ∀ d ∈ content, d ≠ c ∧ d ≠ '"' ∧ d ≠ '\x7b' ∧ d ≠ '[') (rest : List Char) :
    close? (c :: closing) {} (content ++ (c :: closing) ++ rest) = some (content, rest) := by
  induction content
  case nil =>
    have ha : Text.after? (c :: closing) (c :: (closing ++ rest)) = some rest :=
      Text.after?_eq_some_iff.2 rfl
    simp [close?, hm, ha]
  case cons d content ih =>
    obtain ⟨⟨hd, hq, hb, hs⟩, hc⟩ := List.forall_mem_cons.1 hc
    have hn : step {} d = {} := by
      simp only [step, hq, hb, hs, or_self, if_false]
      split <;> rfl
    have ha : Text.after? (c :: closing) (d :: (content ++ (c :: closing) ++ rest)) = none :=
      if_neg hd.symm
    have hi := ih hc
    simp only [List.cons_append, List.append_assoc] at ha hi ⊢
    simp only [close?, ha, ite_self, hn, hi, Option.map_some]

end Nesting
end Phrasebook.Template
