namespace Phrasebook

def digitCount (n : Int) : Nat :=
  (Nat.toDigits 10 n.natAbs).length

def beyondLimit (limit : Nat) (found : Option Nat) : String :=
  "Exceeds the limit (" ++ toString limit ++ " digits) for integer string conversion" ++
    found.elim "" (fun n => ": value has " ++ toString n ++ " digits") ++
    "; use sys.set_int_max_str_digits() to increase the limit"

-- Half of a pair of code units.
def IsHalf (n : Nat) : Prop :=
  0xD800 ≤ n ∧ n < 0xE000

instance (n : Nat) : Decidable (IsHalf n) :=
  inferInstanceAs (Decidable (_ ∧ _))

-- How values and texts are made from one another. A text holds nothing but characters, so a half of
-- a pair that stands alone in it is told by a character that is set apart for it.
structure Conversion where
  -- The most digits that a whole number is written or read with.
  digits : Option Nat
  half : Nat → Char
  half? : Char → Option Nat
  half?_eq_some_iff : ∀ {c n}, half? c = some n ↔ IsHalf n ∧ half n = c

namespace Conversion

def block (digits : Option Nat) (start : Nat) (hl : 0xE000 ≤ start)
    (hr : start + 0x800 ≤ 0x110000) : Conversion where
  digits
  half n := Char.ofNat (start + (n - 0xD800))
  half? c := if start ≤ c.toNat ∧ c.toNat < start + 0x800 then some (c.toNat - start + 0xD800)
    else none
  half?_eq_some_iff := by
    intro c n
    unfold IsHalf
    constructor
    case mp =>
      intro h
      split at h <;> cases h
      refine ⟨by omega, ?_⟩
      have hc : start + (c.toNat - start + 0xD800 - 0xD800) = c.toNat := by omega
      rw [hc, Char.ofNat_toNat]
    case mpr =>
      rintro ⟨hn, rfl⟩
      have hv : (start + (n - 0xD800)).isValidChar := .inr (by omega)
      have hc : (Char.ofNat (start + (n - 0xD800))).toNat = start + (n - 0xD800) := by
        rw [Char.ofNat, dif_pos hv]
        rfl
      have hb : start + (n - 0xD800) < start + 0x800 := by omega
      have hn : start + (n - 0xD800) - start + 0xD800 = n := by omega
      rw [hc, if_pos ⟨Nat.le_add_right .., hb⟩, hn]

def standard : Conversion :=
  block (some 4300) 0x10F800 (by decide) (by decide)

def exceeded? (c : Conversion) (n : Int) : Option Nat :=
  c.digits.filter (· < digitCount n)

def Fits (c : Conversion) (n : Int) : Prop :=
  c.exceeded? n = none

instance (c : Conversion) (n : Int) : Decidable (c.Fits n) :=
  inferInstanceAs (Decidable (_ = _))

theorem fits_iff {c : Conversion} {n : Int} :
    c.Fits n ↔ ∀ limit ∈ c.digits, digitCount n ≤ limit := by
  simp [Fits, exceeded?, Option.filter_eq_none_iff]

end Conversion
end Phrasebook
