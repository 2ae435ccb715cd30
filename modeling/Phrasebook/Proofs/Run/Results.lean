import Phrasebook.Event
import Phrasebook.Template.Split

namespace Phrasebook.Run

variable {ε α β : Type}

def Yields (P : α → Prop) (x : Run ε α) : Prop :=
  ∀ a, x.outcome = .done a → P a

namespace Yields

variable {x : Run ε α} {f : α → Run ε β} {P : α → Prop} {Q : β → Prop}

theorem pure {a : α} (h : P a) : (pure a : Run ε α).Yields P := by
  intro b hb
  cases hb
  exact h

theorem raise {failure : Failure} : (raise failure : Run ε α).Yields P :=
  fun _ h => absurd h outcome_raise_ne_done

theorem starved : (starved : Run ε α).Yields P :=
  fun _ h => absurd h outcome_starved_ne_done

theorem ofExcept {r : Except Failure α} (h : ∀ a, r = .ok a → P a) :
    (ofExcept r : Run ε α).Yields P :=
  fun a ha => h a (outcome_ofExcept_eq_done_iff.1 ha)

theorem bind (h : x.Yields P) (hf : ∀ a, P a → (f a).Yields Q) : (x >>= f).Yields Q := by
  intro b hb
  have ⟨a, ha, hb⟩ := outcome_bind_eq_done_iff.1 hb
  exact hf a (h a ha) b hb

theorem foldlM {step : β → α → Run ε β} {Q : β → Prop} {items : List α} {b : β} (hb : Q b)
    (hs : ∀ b, Q b → ∀ a ∈ items, (step b a).Yields Q) : (items.foldlM step b).Yields Q := by
  induction items generalizing b
  case nil => exact .pure hb
  case cons a items ih =>
    rw [List.foldlM_cons]
    refine Yields.bind (hs b hb a List.mem_cons_self) fun b' hb' => ?_
    exact ih hb' fun b hb a ha => hs b hb a (List.mem_cons_of_mem _ ha)

theorem seq (hf : ∀ a, (f a).Yields Q) : (x >>= f).Yields Q := by
  intro b hb
  have ⟨a, _, hb⟩ := outcome_bind_eq_done_iff.1 hb
  exact hf a b hb

theorem map {g : α → β} (h : x.Yields fun a => Q (g a)) : (g <$> x).Yields Q := by
  intro b hb
  obtain ⟨a, ha, rfl⟩ := outcome_map_eq_done_iff.1 hb
  exact h a ha

theorem attempt (h : x.Yields P) : x.attempt.Yields fun r => ∀ a, r = .ok a → P a := by
  rintro r hr a rfl
  obtain ⟨b, hb, heq⟩ | ⟨_, _, heq⟩ := outcome_attempt_eq_done_iff.1 hr
  case inl =>
    cases heq
    exact h _ hb
  case inr => cases heq

end Yields
end Phrasebook.Run
