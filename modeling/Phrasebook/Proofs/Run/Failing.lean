import Phrasebook.Proofs.Run.Endings

namespace Phrasebook.Run

variable {ε α β : Type} {P : ε → Prop} {B : List ε → List ε → Failure → Prop}

-- All events have the property `P`, but if the run fails, there may be others at the end, and the
-- events in front of these, these and the failure have the property `B`.
def FailsIn (P : ε → Prop) (B : List ε → List ε → Failure → Prop) (x : Run ε α) : Prop :=
  ∃ front last, x.events = front ++ last ∧ (∀ e ∈ front, P e) ∧
    match x.outcome with
    | .raised failure => B front last failure
    | _ => last = []

namespace FailsIn

variable {x : Run ε α} {f : α → Run ε β}

theorem of_forall (hp : ∀ e ∈ x.events, P e)
    (hb : ∀ failure, x.outcome = .raised failure → B x.events [] failure) : x.FailsIn P B := by
  refine ⟨x.events, [], (List.append_nil _).symm, hp, ?_⟩
  split
  case h_1 failure h => exact hb failure h
  case h_2 => rfl

theorem pure {a : α} : (pure a : Run ε α).FailsIn P B :=
  of_forall nofun nofun

theorem raise {failure : Failure} (h : B [] [] failure) : (raise failure : Run ε α).FailsIn P B :=
  of_forall nofun fun _ hf => Outcome.raised.inj hf ▸ h

theorem of_last {last : List ε} {failure : Failure} (h : B [] last failure) :
    (⟨last, .raised failure⟩ : Run ε α).FailsIn P B :=
  ⟨[], last, rfl, nofun, h⟩

theorem emit {e : ε} (h : P e) : (emit e).FailsIn P B :=
  of_forall (fun _ he => List.mem_singleton.1 he ▸ h) nofun

theorem bind (hx : x.FailsIn P B)
    (hf : ∀ a, x.outcome = .done a → (f a).FailsIn P fun front => B (x.events ++ front)) :
    (x >>= f).FailsIn P B := by
  have ⟨front, last, he, hp, hb⟩ := hx
  cases ho : x.outcome <;> rw [ho] at hb
  case done a =>
    have ⟨front', last', he', hp', hb'⟩ := hf a ho
    have hx : x.events = front := by rw [he, hb, List.append_nil]
    refine ⟨front ++ front', last', ?_, List.forall_mem_append.2 ⟨hp, hp'⟩, ?_⟩
    · rw [events_bind ho, he', hx, List.append_assoc]
    · simpa [bind_eq, Run.bind, ho, hx] using hb'
  case raised failure =>
    refine ⟨front, last, ?_, hp, ?_⟩
    · rw [events_bind_of_raised ho, he]
    · simpa [bind_eq, Run.bind, ho] using hb
  case starved =>
    refine ⟨front, last, ?_, hp, ?_⟩
    · simpa [bind_eq, Run.bind, ho] using he
    · simpa [bind_eq, Run.bind, ho] using hb

theorem map {g : α → β} (hx : x.FailsIn P B) : (g <$> x).FailsIn P B := by
  rw [← bind_pure_comp]
  exact hx.bind fun _ _ => pure

theorem of_forget (hx : x.forget.FailsIn P B) : x.FailsIn P B := by
  have ⟨front, last, he, hp, hb⟩ := hx
  refine ⟨front, last, events_forget ▸ he, hp, ?_⟩
  obtain ⟨events, _ | _ | _⟩ := x <;> exact hb

theorem inTurn {run : β → Run ε α} {items : List β}
    (h : ∀ before item after, items = before ++ item :: after → (∀ i ∈ before, (run i).Ends) →
      (run item).FailsIn P fun front =>
        B (before.flatMap (fun i => (run i).events) ++ front)) :
    (inTurn run items).FailsIn P B := by
  induction items generalizing B
  case nil => exact pure
  case cons item items ih =>
    have hitem : (run item).FailsIn P B := h [] item items rfl nofun
    refine hitem.bind fun a ha => ih fun before i after hi hb => ?_
    have hi := h (item :: before) i after (by rw [hi]; rfl) (List.forall_mem_cons.2 ⟨⟨a, ha⟩, hb⟩)
    simpa only [List.flatMap_cons, List.append_assoc] using hi

theorem exists_of_raised {failure : Failure} (hx : x.FailsIn P B)
    (h : x.outcome = .raised failure) :
    ∃ front last, x.events = front ++ last ∧ (∀ e ∈ front, P e) ∧ B front last failure := by
  have ⟨front, last, he, hp, hb⟩ := hx
  rw [h] at hb
  exact ⟨front, last, he, hp, hb⟩

theorem forall_of_not_raised (hx : x.FailsIn P B) (h : ∀ failure, x.outcome ≠ .raised failure) :
    ∀ e ∈ x.events, P e := by
  have ⟨front, last, he, hp, hb⟩ := hx
  cases ho : x.outcome <;> rw [ho] at hb
  case raised failure => exact absurd ho (h failure)
  all_goals
    rw [he, hb, List.append_nil]
    exact hp

end FailsIn
end Phrasebook.Run
