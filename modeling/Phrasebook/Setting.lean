namespace Phrasebook

inductive Setting (α : Type) where
  | unset
  | cleared
  | set (a : α)

namespace Setting

variable {α : Type}

def value? : Setting α → Option α
  | set a => some a
  | _ => none

-- What a lower layer and the one above it give together. A cleared field is open again.
def under (lower : Setting α) : Setting α → Setting α
  | unset => lower
  | cleared => unset
  | set a => set a

-- A text that is open or empty falls back to another one; a mark of clearing stands for itself.
def textOr (fallback : String) : Setting String → String
  | unset => fallback
  | cleared => "DISABLED"
  | set s => if s.isEmpty then fallback else s

theorem textOr_ne_empty {fallback : String} (h : fallback ≠ "") :
    (s : Setting String) → s.textOr fallback ≠ ""
  | unset => h
  | cleared => (by decide : "DISABLED" ≠ "")
  | set s => by
    simp only [textOr]
    split
    case isTrue => exact h
    case isFalse hs => simpa using hs

end Setting
end Phrasebook
