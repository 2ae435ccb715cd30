import Phrasebook.Proofs.Run.Endings

namespace Phrasebook.Run

variable {ε α β : Type}

-- Relations of runs that are kept when runs are put together.
structure Congruence (ε : Type) where
  Rel : {α : Type} → Run ε α → Run ε α → Prop
  refl : ∀ {α : Type} (x : Run ε α), Rel x x
  bind : ∀ {α β : Type} {x y : Run ε α} {f g : α → Run ε β},
    Rel x y → (∀ a, Rel (f a) (g a)) → Rel (x >>= f) (y >>= g)
  attempt : ∀ {α : Type} {x y : Run ε α}, Rel x y → Rel x.attempt y.attempt

namespace Congruence

variable (R : Congruence ε) {x y : Run ε α}

theorem map {k : α → β} (h : R.Rel x y) : R.Rel (k <$> x) (k <$> y) := by
  rw [← bind_pure_comp, ← bind_pure_comp]
  exact R.bind h fun _ => R.refl _

theorem renderM {gap content content' : List Char → Run ε (List Char)}
    (hc : ∀ c, R.Rel (content c) (content' c)) (s : Template.Split) :
    R.Rel (s.renderM gap content) (s.renderM gap content') := by
  induction s using Template.Split.consInduction
  case plain tail => exact R.refl _
  case cons p marked tail ih =>
    simp only [Template.Split.renderM_cons]
    exact R.bind (R.refl _) fun _ => R.bind (hc p.2) fun _ => R.bind ih fun _ => R.refl _

end Congruence

-- Unless the first run is cut short, the second one is the same.
def Settles (x y : Run ε α) : Prop :=
  x.Fed → y = x

namespace Settles

variable {x y : Run ε α} {f g : α → Run ε β}

theorem refl (x : Run ε α) : x.Settles x :=
  fun _ => rfl

theorem of_starved : starved.Settles y :=
  fun h => absurd rfl h

theorem bind (h : x.Settles y) (hf : ∀ a, (f a).Settles (g a)) : (x >>= f).Settles (y >>= g) := by
  intro hb
  obtain ⟨events, outcome⟩ := x
  cases outcome
  case done a =>
    rw [h nofun]
    have ha : g a = f a := hf a hb
    simp only [bind_eq, Run.bind, ha]
  case raised =>
    rw [h nofun]
    rfl
  case starved => exact absurd rfl hb

theorem attempt (h : x.Settles y) : x.attempt.Settles y.attempt := by
  intro ha
  have hx : x.Fed := by
    obtain ⟨events, _ | _ | _⟩ := x
    case starved => exact absurd rfl ha
    all_goals nofun
  rw [h hx]

end Settles

namespace Congruence

def eq : Congruence ε where
  Rel x y := x = y
  refl _ := rfl
  bind h hf := by rw [h, funext hf]
  attempt h := congrArg Run.attempt h

def settles : Congruence ε where
  Rel := Settles
  refl := Settles.refl
  bind := Settles.bind
  attempt := Settles.attempt

def ending : Congruence ε where
  Rel x y := x.outcome = y.outcome
  refl _ := rfl
  bind {_ _ x y _ _} h hf := by
    obtain ⟨_, a | _ | _⟩ := x <;> obtain ⟨_, _ | _ | _⟩ := y <;> cases h
    case done => exact hf a
    all_goals rfl
  attempt {_ x y} h := by
    obtain ⟨_, _ | _ | _⟩ := x <;> obtain ⟨_, _ | _ | _⟩ := y <;> cases h <;> rfl

end Congruence

-- If the run was cut short, there is an event of a kind in it.
def StarvesAt (P : ε → Prop) (x : Run ε α) : Prop :=
  x.outcome = .starved → ∃ e ∈ x.events, P e

namespace StarvesAt

variable {P : ε → Prop} {x : Run ε α} {f : α → Run ε β}

theorem of_fed (h : x.Fed) : x.StarvesAt P :=
  fun hs => absurd hs h

theorem bind (hx : x.StarvesAt P) (hf : ∀ a, (f a).StarvesAt P) : (x >>= f).StarvesAt P := by
  intro hs
  obtain ⟨events, outcome⟩ := x
  cases outcome
  case done a =>
    have ⟨e, he, hp⟩ := hf a hs
    exact ⟨e, List.mem_append_right _ he, hp⟩
  case raised => cases hs
  case starved => exact hx rfl

theorem of_emit {e : ε} (h : P e) : (Run.emit e >>= fun _ => x).StarvesAt P :=
  fun _ => ⟨e, by rw [Run.emit_bind]; exact List.mem_cons_self, h⟩

theorem map {g : α → β} (hx : x.StarvesAt P) : (g <$> x).StarvesAt P := by
  rw [← bind_pure_comp]
  exact hx.bind fun _ => of_fed .pure

theorem attempt (hx : x.StarvesAt P) : x.attempt.StarvesAt P := by
  intro hs
  obtain ⟨events, outcome⟩ := x
  cases outcome
  case starved => exact hx rfl
  all_goals cases hs

theorem renderM {content : List Char → Run ε (List Char)} (hc : ∀ c, (content c).StarvesAt P)
    (s : Template.Split) : (s.renderM Pure.pure content).StarvesAt P := by
  induction s using Template.Split.consInduction
  case plain tail => exact of_fed .pure
  case cons p marked tail ih =>
    rw [Template.Split.renderM_cons]
    exact (of_fed .pure).bind fun _ => (hc p.2).bind fun _ => ih.bind fun _ => of_fed .pure

theorem fed (hx : x.StarvesAt fun _ => False) : x.Fed := by
  intro hs
  have ⟨_, _, hp⟩ := hx hs
  exact hp

end StarvesAt
end Phrasebook.Run
