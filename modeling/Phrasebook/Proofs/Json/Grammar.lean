import Phrasebook.Json.Reader

namespace Phrasebook.Json

def Blank (text : List Char) : Prop :=
  ∀ c ∈ text, isSpace c

inductive Hex : List Char → Nat → Prop
  | intro {a b c d : Char} {i j k l : Nat} (ha : digit? a = some i) (hb : digit? b = some j)
      (hc : digit? c = some k) (hd : digit? d = some l) :
      Hex [a, b, c, d] (((i * 16 + j) * 16 + k) * 16 + l)

def High (n : Nat) : Prop :=
  0xD800 ≤ n ∧ n < 0xDC00

def Low (n : Nat) : Prop :=
  0xDC00 ≤ n ∧ n < 0xE000

def BeginsLow (text : List Char) : Prop :=
  ∃ digits n rest, Hex digits n ∧ Low n ∧ text = '\\' :: 'u' :: (digits ++ rest)

-- What stands between the quotation marks of a string, and the symbols of the string.
inductive Spelling : List Char → List Symbol → Prop
  | nil : Spelling [] []
  | plain {c : Char} {text : List Char} {s : List Symbol} (hq : c ≠ '"') (hb : c ≠ '\\')
      (hc : 0x20 ≤ c.toNat) (h : Spelling text s) : Spelling (c :: text) (.char c :: s)
  | short {c d : Char} {text : List Char} {s : List Symbol} (hc : short? c = some d)
      (h : Spelling text s) : Spelling ('\\' :: c :: text) (.char d :: s)
  | unit {digits text : List Char} {s : List Symbol} {n : Nat} (hd : Hex digits n)
      (hn : High n → ¬ BeginsLow text) (h : Spelling text s) :
      Spelling ('\\' :: 'u' :: (digits ++ text)) (ofUnit n :: s)
  | pair {digits digits' text : List Char} {s : List Symbol} {n m : Nat} (hd : Hex digits n)
      (hn : High n) (hd' : Hex digits' m) (hm : Low m) (h : Spelling text s) :
      Spelling ('\\' :: 'u' :: (digits ++ '\\' :: 'u' :: (digits' ++ text)))
        (.char (joined n m) :: s)

structure Digits (text : List Char) : Prop where
  ne_nil : text ≠ []
  isDigit : ∀ c ∈ text, c.isDigit

inductive Whole : List Char → Prop
  | zero : Whole ['0']
  | positive {text : List Char} (hd : Digits text) (hz : text.head? ≠ some '0') : Whole text

inductive Fraction : List Char → List Char → Prop
  | none : Fraction [] []
  | point {ds : List Char} (h : Digits ds) : Fraction ('.' :: ds) ds

inductive Sign : List Char → Bool → Prop
  | none : Sign [] false
  | plus : Sign ['+'] false
  | minus : Sign ['-'] true

inductive Exponent : List Char → Option Int → Prop
  | none : Exponent [] none
  | mark {c : Char} {sign ds : List Char} {negative : Bool} (hc : c = 'e' ∨ c = 'E')
      (hs : Sign sign negative) (hd : Digits ds) :
      Exponent (c :: (sign ++ ds)) (some (if negative then -ofDigits ds else ofDigits ds))

def numeral (negative : Bool) (ds fs : List Char) : Option Int → Value
  | some e => .float (Decimal.nearest negative (ofDigits (ds ++ fs)) (e - fs.length))
  | none =>
    if fs = [] then .int (if negative then -ofDigits ds else ofDigits ds)
    else .float (Decimal.nearest negative (ofDigits (ds ++ fs)) (0 - fs.length))

inductive Numeral : List Char → Value → Prop
  | intro {sign ds f fs e : List Char} {negative : Bool} {x : Option Int}
      (hs : Sign sign negative) (hp : sign ≠ ['+']) (hd : Whole ds) (hf : Fraction f fs)
      (he : Exponent e x) : Numeral (sign ++ (ds ++ (f ++ e))) (numeral negative ds fs x)

-- What a text stands for. An object has all its members in the order in which they are written, of
-- which more than one may go by a name.
inductive Tree where
  | scalar (v : Value)
  | string (s : List Symbol)
  | list (items : List Tree)
  | object (members : List (List Symbol × Tree))

-- What a part of a text stands for: a tree, or the members of an object or the items of a list,
-- with the bracket that closes them.
inductive Part where
  | value (t : Tree)
  | members (ms : List (List Symbol × Tree))
  | items (ts : List Tree)

inductive Spells : List Char → Part → Prop
  | string {text : List Char} {s : List Symbol} (h : Spelling text s) :
      Spells ('"' :: (text ++ ['"'])) (.value (.string s))
  | number {text : List Char} {v : Value} (h : Numeral text v) : Spells text (.value (.scalar v))
  | word {text : List Char} {v : Value} (h : (text, v) ∈ words) : Spells text (.value (.scalar v))
  | emptyObject {w : List Char} (hw : Blank w) :
      Spells ('\x7b' :: (w ++ ['\x7d'])) (.value (.object []))
  | object {w text : List Char} {ms : List (List Symbol × Tree)} (hw : Blank w)
      (h : Spells text (.members ms)) : Spells ('\x7b' :: (w ++ text)) (.value (.object ms))
  | emptyList {w : List Char} (hw : Blank w) : Spells ('[' :: (w ++ [']'])) (.value (.list []))
  | list {w text : List Char} {ts : List Tree} (hw : Blank w) (h : Spells text (.items ts)) :
      Spells ('[' :: (w ++ text)) (.value (.list ts))
  | lastMember {name w₁ w₂ text w₃ : List Char} {s : List Symbol} {t : Tree}
      (hs : Spelling name s) (h₁ : Blank w₁) (h₂ : Blank w₂) (ht : Spells text (.value t))
      (h₃ : Blank w₃) :
      Spells ('"' :: (name ++ '"' :: (w₁ ++ ':' :: (w₂ ++ (text ++ (w₃ ++ ['\x7d']))))))
        (.members [(s, t)])
  | member {name w₁ w₂ text w₃ w₄ more : List Char} {s : List Symbol} {t : Tree}
      {ms : List (List Symbol × Tree)} (hs : Spelling name s) (h₁ : Blank w₁) (h₂ : Blank w₂)
      (ht : Spells text (.value t)) (h₃ : Blank w₃) (h₄ : Blank w₄)
      (hm : Spells more (.members ms)) :
      Spells ('"' :: (name ++ '"' :: (w₁ ++ ':' :: (w₂ ++ (text ++ (w₃ ++ ',' :: (w₄ ++ more)))))))
        (.members ((s, t) :: ms))
  | lastItem {text w : List Char} {t : Tree} (ht : Spells text (.value t)) (hw : Blank w) :
      Spells (text ++ (w ++ [']'])) (.items [t])
  | item {text w w' more : List Char} {t : Tree} {ts : List Tree} (ht : Spells text (.value t))
      (hw : Blank w) (hw' : Blank w') (hm : Spells more (.items ts)) :
      Spells (text ++ (w ++ ',' :: (w' ++ more))) (.items (t :: ts))

namespace Tree

mutual

-- The value that a tree makes. Of two members of one name the later gives the value and the earlier
-- the place.
def value (c : Conversion) : Tree → Value
  | scalar v => v
  | string s => .text (text c s)
  | list items => .list (values c items)
  | object members => .object (Members.putAll [] (pairs c members))

def values (c : Conversion) : List Tree → List Value
  | [] => []
  | t :: ts => value c t :: values c ts

def pairs (c : Conversion) : List (List Symbol × Tree) → Members Value
  | [] => []
  | (s, t) :: ms => (text c s, value c t) :: pairs c ms

end

mutual

def integers : Tree → List Int
  | scalar v => v.integers
  | string _ => []
  | list items => integersOfItems items
  | object members => integersOfMembers members

def integersOfItems : List Tree → List Int
  | [] => []
  | t :: ts => integers t ++ integersOfItems ts

def integersOfMembers : List (List Symbol × Tree) → List Int
  | [] => []
  | (_, t) :: ms => integers t ++ integersOfMembers ms

end

end Tree

theorem isSpace_cases {c : Char} (h : isSpace c) : c = ' ' ∨ c = '\t' ∨ c = '\n' ∨ c = '\r' := by
  simpa [isSpace, or_assoc] using h

theorem Blank.no_brace {w : List Char} (h : Blank w) : '\x7b' ∉ w := by
  intro hc
  rcases isSpace_cases (h _ hc) with h | h | h | h <;> cases h

theorem Whole.isDigit {text : List Char} (h : Whole text) : ∀ c ∈ text, c.isDigit := by
  cases h
  case zero => simp
  case positive hd _ => exact hd.isDigit

theorem spelling_of_plain {text : List Char}
    (h : ∀ c ∈ text, c ≠ '"' ∧ c ≠ '\\' ∧ 0x20 ≤ c.toNat) :
    Spelling text (text.map Symbol.char) := by
  induction text
  case nil => exact .nil
  case cons c text ih =>
    obtain ⟨⟨hq, hb, hc⟩, h⟩ := List.forall_mem_cons.1 h
    exact .plain hq hb hc (ih h)

theorem Numeral.isDigit_or_mark {text : List Char} {v : Value} (h : Numeral text v) :
    ∀ c ∈ text, c.isDigit ∨ c ∈ ['-', '+', '.', 'e', 'E'] := by
  obtain @⟨sign, ds, f, fs, e, _, _, hs, _, hd, hf, he⟩ := h
  simp only [List.forall_mem_append]
  refine ⟨?_, fun c hc => .inl (hd.isDigit c hc), ?_, ?_⟩
  case refine_1 => cases hs <;> simp
  case refine_2 =>
    cases hf
    case none => simp
    case point hf => exact List.forall_mem_cons.2 ⟨by simp, fun c hc => .inl (hf.isDigit c hc)⟩
  case refine_3 =>
    cases he
    case none => simp
    case mark hc hs hd =>
      refine List.forall_mem_cons.2 ⟨by rcases hc with rfl | rfl <;> simp, ?_⟩
      refine List.forall_mem_append.2 ⟨?_, fun c hc => .inl (hd.isDigit c hc)⟩
      cases hs <;> simp

theorem Numeral.exists_append_cons {text : List Char} {v : Value} (h : Numeral text v) :
    ∃ sign c rest, (sign = [] ∨ sign = ['-']) ∧ c.isDigit ∧ text = sign ++ c :: rest := by
  obtain @⟨sign, ds, f, fs, e, _, _, hs, hp, hd, hf, he⟩ := h
  have ⟨c, rest, hw⟩ : ∃ c rest, ds = c :: rest := by
    cases hd
    case zero => exact ⟨_, _, rfl⟩
    case positive hd _ => exact List.exists_cons_of_ne_nil hd.ne_nil
  have hc : c.isDigit := hd.isDigit c (hw ▸ List.mem_cons_self)
  subst hw
  cases hs
  case none => exact ⟨[], c, _, .inl rfl, hc, rfl⟩
  case plus => exact absurd rfl hp
  case minus => exact ⟨['-'], c, _, .inr rfl, hc, rfl⟩

theorem Spells.exists_of_object {text : List Char} {ms : List (List Symbol × Tree)}
    (h : Spells text (.value (.object ms))) :
    ∃ w rest, text = '\x7b' :: (w ++ rest) ∧ Blank w ∧
      (rest = ['\x7d'] ∨ Spells rest (.members ms)) := by
  cases h
  case emptyObject w hw => exact ⟨w, _, rfl, hw, .inl rfl⟩
  case object w text hw h => exact ⟨w, text, rfl, hw, .inr h⟩

theorem Spells.exists_cons {text : List Char} {t : Tree} (h : Spells text (.value t)) :
    ∃ c rest, text = c :: rest ∧ isSpace c = false ∧ c ≠ ']' ∧ c ≠ '\uFEFF' := by
  cases h
  case number h =>
    obtain ⟨sign, c, rest, rfl | rfl, hc, rfl⟩ := h.exists_append_cons
    case inr => exact ⟨_, _, rfl, by decide⟩
    case inl =>
      refine ⟨c, rest, rfl, ?_, ?_, ?_⟩
      case refine_1 =>
        refine Bool.eq_false_iff.2 fun hs => ?_
        rcases isSpace_cases hs with rfl | rfl | rfl | rfl <;> cases hc
      all_goals
        rintro rfl
        cases hc
  case word h =>
    simp only [words, List.mem_cons, Prod.mk.injEq, List.not_mem_nil, or_false] at h
    rcases h with ⟨rfl, _⟩ | ⟨rfl, _⟩ | ⟨rfl, _⟩ | ⟨rfl, _⟩ | ⟨rfl, _⟩ | ⟨rfl, _⟩
    all_goals exact ⟨_, _, rfl, by decide⟩
  all_goals exact ⟨_, _, rfl, by decide⟩

theorem Spells.exists_of_members {text : List Char} {ms : List (List Symbol × Tree)}
    (h : Spells text (.members ms)) : ∃ rest, text = '"' :: rest := by
  cases h
  all_goals exact ⟨_, rfl⟩

theorem Spells.exists_of_items {text : List Char} {ts : List Tree}
    (h : Spells text (.items ts)) :
    ∃ c rest, text = c :: rest ∧ isSpace c = false ∧ c ≠ ']' := by
  cases h
  case lastItem ht _ | item ht _ _ _ =>
    obtain ⟨c, rest, rfl, hs, hc, _⟩ := ht.exists_cons
    exact ⟨c, _, rfl, hs, hc⟩

end Phrasebook.Json
