import Phrasebook.Proofs.Json.Trees

namespace Phrasebook.Json

theorem ofDigits_toDigits (n : Nat) : ofDigits (Nat.toDigits 10 n) = n := by
  have h : ofDigits (Nat.toDigits 10 n) = Nat.ofDigitChars 10 (Nat.toDigits 10 n) 0 := by
    simp only [ofDigits, Nat.ofDigitChars, Nat.mul_comm]
  rw [h, Nat.ofDigitChars_ten_toDigits]

theorem digits_toDigits (n : Nat) : Digits (Nat.toDigits 10 n) where
  ne_nil := Nat.toDigits_ne_nil
  isDigit _ hc := Nat.isDigit_of_mem_toDigits (by decide) (by decide) hc

theorem head?_toDigits {n : Nat} (hn : n ≠ 0) : (Nat.toDigits 10 n).head? ≠ some '0' := by
  induction n using Nat.strongRecOn
  case ind n ih =>
    rcases Nat.lt_or_ge n 10 with hlt | hle
    case inl => simpa [Nat.toDigits_of_lt_base hlt] using hn
    case inr =>
      have h := ih (n / 10) (Nat.div_lt_self (by omega) (by decide)) (by omega)
      rw [Nat.toDigits_of_base_le (by decide) hle]
      have hd : Nat.toDigits 10 (n / 10) ≠ [] := Nat.toDigits_ne_nil
      obtain ⟨c, ds, hd⟩ := List.exists_cons_of_ne_nil hd
      simpa [hd] using h

theorem whole_toDigits (n : Nat) : Whole (Nat.toDigits 10 n) := by
  by_cases hn : n = 0
  case pos =>
    subst hn
    exact .zero
  case neg => exact .positive (digits_toDigits n) (head?_toDigits hn)

theorem digitCount_pow (k : Nat) : digitCount (Nat.pow 10 k) = k + 1 := by
  have hpow : Nat.pow 10 k < Nat.pow 10 (k + 1) :=
    Nat.pow_lt_pow_right (by decide) (Nat.lt_succ_self k)
  have hle : (Nat.toDigits 10 (Nat.pow 10 k)).length ≤ k + 1 :=
    (Nat.length_toDigits_le_iff (by decide) (Nat.succ_pos k)).2 hpow
  have hlt : k < (Nat.toDigits 10 (Nat.pow 10 k)).length := by
    refine Nat.lt_of_not_le fun h => ?_
    rcases Nat.eq_zero_or_pos k with rfl | hk
    case inl => exact Nat.toDigits_ne_nil (List.eq_nil_of_length_eq_zero (Nat.le_zero.1 h))
    case inr => exact Nat.lt_irrefl _ ((Nat.length_toDigits_le_iff (by decide) hk).1 h)
  exact Nat.le_antisymm hle hlt

theorem spells_int (n : Int) : Spells (toString n).toList (.value (.scalar (.int n))) := by
  have hnumeral {sign : List Char} {negative : Bool} (hs : Sign sign negative) (hp : sign ≠ ['+'])
      (m : Nat) : Spells (sign ++ Nat.toDigits 10 m)
        (.value (.scalar (.int (if negative then -(m : Int) else m)))) := by
    have h := Numeral.intro hs hp (whole_toDigits m) .none .none
    simpa [numeral, ofDigits_toDigits] using Spells.number h
  cases n
  case ofNat m =>
    have ht : (toString (Int.ofNat m)).toList = [] ++ Nat.toDigits 10 m := Nat.toList_repr
    rw [ht]
    exact hnumeral .none (by simp) m
  case negSucc m =>
    have ht : (toString (Int.negSucc m)).toList = ['-'] ++ Nat.toDigits 10 (m + 1) := by
      rw [← Nat.toList_repr]
      exact String.toList_append
    rw [ht]
    exact hnumeral .minus (by simp) (m + 1)

theorem read_int_iff {k : Conversion} {n : Int} :
    read (toString n) k = .ok (.int n) ↔ k.Fits n := by
  have hw : Blank [] := List.forall_mem_nil _
  have hr := read_of_spells (spells_int n) hw hw k
  rw [List.nil_append, List.append_nil, String.ofList_toList] at hr
  have hc := @check_eq_ok_iff k n
  rw [hr, ← hc]
  simp only [Tree.integers, Value.integers, Tree.value, List.forM_cons, List.forM_nil]
  cases check k n <;> simp [bind, Except.bind, pure, Except.pure]

theorem read_int_of_no_limit {k : Conversion} (h : k.digits = none) (n : Int) :
    read (toString n) k = .ok (.int n) :=
  read_int_iff.2 (Conversion.fits_iff.2 (by simp [h]))

end Phrasebook.Json
