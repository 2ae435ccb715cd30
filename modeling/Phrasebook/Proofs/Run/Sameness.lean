import Phrasebook.Event
import Phrasebook.Template.Split

namespace Phrasebook

variable {ι α β : Type}

namespace Options

def withOnFailure (o : Options ι) (onFailure : Setting (OnFailure ι)) : Options ι :=
  { o with onFailure }

end Options

-- A call to the store or to a formatter. What its options say about failures is left open, so that
-- calls can be compared that differ in that.
def Act.asked? : Act ι → Option (Act ι)
  | retrieve l ns key o => some (retrieve l ns key (o.withOnFailure .unset))
  | format f v name l o => some (format f v name l (o.withOnFailure .unset))
  | _ => none

namespace Run

def asked (x : Run (Event ι) α) : List (Act ι) :=
  x.events.filterMap (·.act.asked?)

structure Same (x y : Run (Event ι) α) : Prop where
  outcome_eq : y.outcome = x.outcome
  asked_eq : y.asked = x.asked

namespace Same

variable {x y z : Run (Event ι) α} {f g : α → Run (Event ι) β}

theorem refl (x : Run (Event ι) α) : x.Same x :=
  ⟨rfl, rfl⟩

theorem symm (h : x.Same y) : y.Same x :=
  ⟨h.outcome_eq.symm, h.asked_eq.symm⟩

theorem trans (hx : x.Same y) (hy : y.Same z) : x.Same z :=
  ⟨hy.outcome_eq.trans hx.outcome_eq, hy.asked_eq.trans hx.asked_eq⟩

theorem bind (h : x.Same y) (hf : ∀ a, x.outcome = .done a → (f a).Same (g a)) :
    (x >>= f).Same (y >>= g) := by
  have ⟨ho, ha⟩ := h
  obtain ⟨events, outcome⟩ := x
  obtain ⟨events', outcome'⟩ := y
  cases ho
  cases outcome
  case done a =>
    have ⟨hfo, hfa⟩ := hf a rfl
    refine ⟨hfo, ?_⟩
    simp only [asked, bind_eq, Run.bind, List.filterMap_append] at ha hfa ⊢
    rw [ha, hfa]
  case raised => exact ⟨rfl, ha⟩
  case starved => exact ⟨rfl, ha⟩

theorem map {k : α → β} (h : x.Same y) : (k <$> x).Same (k <$> y) := by
  rw [← bind_pure_comp, ← bind_pure_comp]
  exact h.bind fun _ _ => .refl _

theorem attempt (h : x.Same y) : x.attempt.Same y.attempt := by
  have ⟨ho, ha⟩ := h
  obtain ⟨events, outcome⟩ := x
  obtain ⟨events', outcome'⟩ := y
  cases ho
  cases outcome
  all_goals exact ⟨rfl, ha⟩

theorem emit {e e' : Event ι} (h : e'.act.asked? = e.act.asked?) :
    (Run.emit e).Same (Run.emit e') :=
  ⟨rfl, by simp [asked, Run.emit, List.filterMap_cons, h]⟩

theorem renderM {gap content gap' content' : List Char → Run (Event ι) (List Char)}
    (hg : ∀ g, (gap g).Same (gap' g)) (hc : ∀ c, (content c).Same (content' c))
    (s : Template.Split) : (s.renderM gap content).Same (s.renderM gap' content') := by
  induction s using Template.Split.consInduction
  case plain tail => exact hg tail
  case cons p marked tail ih =>
    simp only [Template.Split.renderM_cons]
    exact (hg p.1).bind fun _ _ => (hc p.2).bind fun _ _ => ih.bind fun _ _ => .refl _

end Same
end Run
end Phrasebook
