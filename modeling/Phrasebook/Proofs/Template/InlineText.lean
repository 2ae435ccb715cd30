import Phrasebook.Proofs.Template.InlineOptions

namespace Phrasebook

variable {ι : Type}

namespace Template

-- What is handed on: a text in which JSON escapes nothing, or a whole number.
inductive Payload where
  | text (s : String) (h : ∀ c ∈ s.toList, c ≠ '"' ∧ c ≠ '\\' ∧ 0x20 ≤ c.toNat)
  | int (n : Int)

namespace Payload

def value : Payload → Value
  | text s _ => .text s
  | int n => .int n

def shown (p : Payload) : List Char :=
  p.value.shown.toList

def tree : Payload → Json.Tree
  | text s _ => .string (s.toList.map .char)
  | int n => .scalar (.int n)

def Fits (c : Conversion) (p : Payload) : Prop :=
  ∀ n ∈ p.tree.integers, c.Fits n

def quoted (inside : List Char) : Payload → List Char
  | text .. => '"' :: (inside ++ ['"'])
  | int _ => inside

end Payload

-- A member of the own variables. Its value is that of a variable of the template.
structure Inline where
  name : String
  source : String
  payload : Payload
  name_identifier : Identifier name.toList
  source_identifier : Identifier source.toList
  -- The spaces around it.
  front : List Char
  back : List Char
  front_blank : Json.Blank front
  back_blank : Json.Blank back

namespace Inline

def text (inside : Inline → List Char) (m : Inline) : List Char :=
  m.front ++ '"' :: (m.name.toList ++ '"' :: ':' :: ' ' :: (m.payload.quoted (inside m) ++ m.back))

def pair (m : Inline) : String × Value :=
  (m.name, m.payload.value)

def member (m : Inline) : List Json.Symbol × Json.Tree :=
  (m.name.toList.map .char, m.payload.tree)

variable {m : Inline} {ms : List Inline} {inside : Inline → List Char}

end Inline

theorem Identifier.flat {name : List Char} (h : Identifier name) : Json.Flat name := by
  intro c hc hm
  have hn := h.chars c hc
  simp only [List.mem_cons, List.not_mem_nil, or_false] at hm
  rcases hm with rfl | rfl | rfl | rfl | rfl <;> cases hn

namespace Inline

variable {closing : List Char} {d : Nat} {m : Inline} {ms : List Inline}

section Filling

variable {site : Site ι} {bag : Bag} {template : String}

def shown (m : Inline) : List Char :=
  m.payload.shown

end Filling

end Inline

variable {site : Site ι} {bag : Bag} {key : String} {ms : List Inline} {w w' : List Char}

end Template
end Phrasebook
