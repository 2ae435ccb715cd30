import Phrasebook.Proofs.Template.Leftmost
import Phrasebook.Proofs.Text.Occurrences
import Phrasebook.Proofs.Text.Trimming

namespace Phrasebook

variable {ι : Type}

-- Marks around nested keys that were not changed, and none of variables that could be mixed up
-- with them.
structure Options.UsualNesting (o : Options ι) : Prop where
  opening : o.opening.textOr "\x7b\x7b" = "\x7b\x7b"
  nestOpening : o.nestOpening.textOr "$t(" = "$t("
  nestClosing : o.nestClosing.textOr ")" = ")"
  nestSeparator : o.nestSeparator.textOr "," = ","

structure Options.UsualMarks (o : Options ι) : Prop extends UsualNesting o where
  closing : o.closing.textOr "\x7d\x7d" = "\x7d\x7d"
  formatSeparator : o.formatSeparator.textOr "," = ","
  rawMark : o.rawMark.textOr "-" = "-"

namespace Options

theorem usualMarks_base : (base : Options ι).UsualMarks where
  opening := rfl
  nestOpening := rfl
  nestClosing := rfl
  nestSeparator := rfl
  closing := rfl
  formatSeparator := rfl
  rawMark := rfl

variable {o : Options ι}

theorem UsualMarks.unescaped (h : o.UsualMarks) : o.unescaped.UsualMarks where
  opening := h.opening
  nestOpening := h.nestOpening
  nestClosing := h.nestClosing
  nestSeparator := h.nestSeparator
  closing := h.closing
  formatSeparator := h.formatSeparator
  rawMark := h.rawMark

end Options

namespace Template

namespace Split

def prepend (text : List Char) : Split → Split
  | ⟨[], tail⟩ => ⟨[], text ++ tail⟩
  | ⟨(gap, content) :: marked, tail⟩ => ⟨(text ++ gap, content) :: marked, tail⟩

end Split

variable {site : Site ι} {bag : Bag} {template : String} {part made part' made' rest : List Char}

-- What a part of a template becomes, whatever follows it.
def Fills (site : Site ι) (bag : Bag) (template : String) (part made : List Char) : Prop :=
  ∀ rest, fill site bag template (part ++ rest) = (made ++ ·) <$> fill site bag template rest

namespace Fills

theorem nil : Fills site bag template [] [] := by
  intro rest
  simp

theorem append (h : Fills site bag template part made) (h' : Fills site bag template part' made') :
    Fills site bag template (part ++ part') (made ++ made') := by
  intro rest
  rw [List.append_assoc, h, h', Functor.map_map]
  simp only [List.append_assoc]

end Fills

section Usual

variable (ho : site.options.UsualMarks)

include ho

end Usual

def isNameChar (c : Char) : Bool :=
  if c.toNat < 0x80 then c.isAlphanum || c == '_' else !Text.isBlank c

structure Identifier (name : List Char) : Prop where
  ne_nil : name ≠ []
  chars : ∀ c ∈ name, isNameChar c

theorem forall_ascii {p : Char → Prop} {limit : Nat} (h : ∀ n < limit, p (Char.ofNat n)) {c : Char}
    (hc : c.toNat < limit) : p c := by
  have hp := h c.toNat hc
  rwa [Char.ofNat_toNat] at hp

theorem isBlank_of_isNameChar {c : Char} (h : isNameChar c) : Text.isBlank c = false := by
  rcases Nat.lt_or_ge c.toNat 0x80 with hlt | hge
  case inl =>
    have hc : isNameChar c → Text.isBlank c = false :=
      @forall_ascii (fun c => isNameChar c → Text.isBlank c = false) 0x80 (by decide +kernel) c hlt
    exact hc h
  case inr => simpa [isNameChar, Nat.not_lt.2 hge] using h

section Names

variable {name : List Char} {o : Options ι} {value : Value} {s : String} {c : Char}

theorem Identifier.trimmed_eq (h : Identifier name) : Text.trimmed name = name :=
  Text.trimmed_eq_self fun c hc => isBlank_of_isNameChar (h.chars c hc)

end Names

end Template
end Phrasebook
