import Phrasebook.Proofs.Json.Completeness

namespace Phrasebook.Json

variable {k : Conversion}

theorem check_eq_ok_iff {n : Int} : check k n = .ok () ↔ k.Fits n := by
  rw [check, Conversion.Fits]
  cases k.exceeded? n <;> simp

theorem forM_check_eq_ok_iff {ns : List Int} :
    forM ns (check k) = .ok () ↔ ∀ n ∈ ns, k.Fits n := by
  induction ns
  case nil => simp [pure, Except.pure]
  case cons n ns ih =>
    have hc := @check_eq_ok_iff k n
    rw [List.forM_cons, List.forall_mem_cons, ← ih, ← hc]
    cases check k n <;> simp [bind, Except.bind]

section Reading

variable {text w w' : List Char} {t : Tree}

theorem read_of_fits (h : Spells text (.value t)) (hw : Blank w) (hw' : Blank w')
    (hf : ∀ n ∈ t.integers, k.Fits n) :
    read (String.ofList (w ++ (text ++ w'))) k = .ok (t.value k) := by
  rw [read_of_spells h hw hw', forM_check_eq_ok_iff.2 hf]
  rfl

theorem read_of_exceeded (h : Spells text (.value t)) (hw : Blank w) (hw' : Blank w')
    {before after : List Int} {n : Int} {limit : Nat} (hn : t.integers = before ++ n :: after)
    (hb : ∀ m ∈ before, k.Fits m) (hl : k.exceeded? n = some limit) :
    read (String.ofList (w ++ (text ++ w'))) k = .error (.tooLong limit n) := by
  have hc : check k n = .error (.tooLong limit n) := by rw [check, hl]
  rw [read_of_spells h hw hw', hn, List.forM_append, forM_check_eq_ok_iff.2 hb, List.forM_cons, hc]
  rfl

end Reading

def Symbol.told (k : Conversion) (c : Char) : Symbol :=
  match h : k.half? c with
  | some n => .half n (k.half?_eq_some_iff.1 h).1
  | none => .char c

-- No character that tells a half stands for itself.
def Free (k : Conversion) (s : List Symbol) : Prop :=
  ∀ c, Symbol.char c ∈ s → k.half? c = none

theorem Symbol.told_shown {x : Symbol} (h : ∀ c, x = .char c → k.half? c = none) :
    told k (x.shown k) = x := by
  cases x
  case char c =>
    have hc := h c rfl
    unfold told
    split
    case h_1 heq => cases hc.symm.trans heq
    case h_2 => rfl
  case half n hn =>
    have hc : k.half? (k.half n) = some n := k.half?_eq_some_iff.2 ⟨hn, rfl⟩
    unfold told
    split
    case h_1 heq =>
      cases hc.symm.trans heq
      rfl
    case h_2 heq => cases hc.symm.trans heq

variable {s s' : List Symbol}

theorem told_text (h : Free k s) : (text k s).toList.map (Symbol.told k) = s := by
  have hs : ∀ x ∈ s, (Symbol.told k ∘ Symbol.shown k) x = id x := fun x hx =>
    Symbol.told_shown fun c hc => h c (hc ▸ hx)
  rw [text, String.toList_ofList, List.map_map, List.map_congr_left hs, List.map_id]

theorem text_inj (h : Free k s) (h' : Free k s') : text k s = text k s' ↔ s = s' := by
  constructor
  case mp => exact fun heq => by rw [← told_text h, ← told_text h', heq]
  case mpr => exact congrArg (text k)

-- Members go by their names, symbol by symbol, and of two members of one name the later counts.
theorem get?_putAll_pairs {ms : List (List Symbol × Tree)} (hs : Free k s)
    (hm : ∀ m ∈ ms, Free k m.1) (found : Members Value) :
    (Members.putAll found (Tree.pairs k ms)).get? (text k s) =
      ((ms.reverse.lookup s).map (Tree.value k)).or (found.get? (text k s)) := by
  induction ms generalizing found
  case nil => rfl
  case cons m ms ih =>
    obtain ⟨name, t⟩ := m
    obtain ⟨hn, hm⟩ := List.forall_mem_cons.1 hm
    have hput : Members.putAll found (Tree.pairs k ((name, t) :: ms)) =
        Members.putAll (found.put (text k name) (t.value k)) (Tree.pairs k ms) := rfl
    rw [hput, ih hm, List.reverse_cons, List.lookup_append, Members.get?_put]
    cases ms.reverse.lookup s
    case some => rfl
    case none =>
      by_cases heq : name = s
      case pos => simp [heq]
      case neg =>
        have hl : (s == name) = false := beq_false_of_ne (Ne.symm heq)
        simp [List.lookup_cons, hl, mt (text_inj hn hs).1 heq]

end Phrasebook.Json
