import Phrasebook.Failure

namespace Phrasebook

inductive Outcome (α : Type) where
  | done (a : α)
  | raised (failure : Failure)
  | starved
deriving DecidableEq

structure Run (ε α : Type) where
  events : List ε
  outcome : Outcome α

namespace Run

variable {ε α β : Type}

protected def bind (x : Run ε α) (f : α → Run ε β) : Run ε β :=
  match x.outcome with
  | .done a =>
    let y := f a
    ⟨x.events ++ y.events, y.outcome⟩
  | .raised failure => ⟨x.events, .raised failure⟩
  | .starved => ⟨x.events, .starved⟩

instance : Monad (Run ε) where
  pure a := ⟨[], .done a⟩
  bind := Run.bind

theorem bind_eq (x : Run ε α) (f : α → Run ε β) : x >>= f = x.bind f :=
  rfl

theorem pure_eq (a : α) : (pure a : Run ε α) = ⟨[], .done a⟩ :=
  rfl

instance : LawfulMonad (Run ε) :=
  .mk' (Run ε)
    (fun x => by
      obtain ⟨events, _ | _ | _⟩ := x <;> simp [Functor.map, Run.bind])
    (fun a f => by simp [bind_eq, pure_eq, Run.bind])
    (fun x f g => by
      obtain ⟨events, a | _ | _⟩ := x
      case done =>
        simp only [bind_eq, Run.bind]
        cases (f a).outcome <;> simp
      all_goals rfl)

def raise (failure : Failure) : Run ε α :=
  ⟨[], .raised failure⟩

def starved : Run ε α :=
  ⟨[], .starved⟩

def emit (e : ε) : Run ε Unit :=
  ⟨[e], .done ()⟩

def ofExcept : Except Failure α → Run ε α
  | .ok a => pure a
  | .error failure => raise failure

def attempt (x : Run ε α) : Run ε (Except Failure α) :=
  match x.outcome with
  | .done a => ⟨x.events, .done (.ok a)⟩
  | .raised failure => ⟨x.events, .done (.error failure)⟩
  | .starved => ⟨x.events, .starved⟩

variable {x : Run ε α} {f : α → Run ε β} {g : α → β} {a : α} {b : β}

@[simp]
theorem outcome_pure : (pure a : Run ε α).outcome = .done a :=
  rfl

@[simp]
theorem events_pure : (pure a : Run ε α).events = [] :=
  rfl

@[simp]
theorem outcome_emit {e : ε} : (emit e).outcome = .done () :=
  rfl

@[simp]
theorem outcome_raise_ne_done {failure : Failure} : (raise failure : Run ε α).outcome ≠ .done a :=
  nofun

@[simp]
theorem outcome_starved_ne_done : (starved : Run ε α).outcome ≠ .done a :=
  nofun

@[simp]
theorem outcome_ofExcept_eq_done_iff {r : Except Failure α} :
    (ofExcept r : Run ε α).outcome = .done a ↔ r = .ok a := by
  cases r <;> simp [ofExcept]

theorem not_mem_events_ofExcept {r : Except Failure α} {e : ε} :
    e ∉ (ofExcept r : Run ε α).events := by
  cases r <;> simp [ofExcept, raise]

theorem outcome_bind_eq_done_iff :
    (x >>= f).outcome = .done b ↔ ∃ a, x.outcome = .done a ∧ (f a).outcome = .done b := by
  obtain ⟨events, _ | _ | _⟩ := x <;> simp [bind_eq, Run.bind]

theorem outcome_map_eq_done_iff :
    (g <$> x).outcome = .done b ↔ ∃ a, x.outcome = .done a ∧ g a = b := by
  simp [← bind_pure_comp, outcome_bind_eq_done_iff]

theorem events_bind (h : x.outcome = .done a) : (x >>= f).events = x.events ++ (f a).events := by
  simp [bind_eq, Run.bind, h]

theorem events_map : (g <$> x).events = x.events := by
  obtain ⟨events, _ | _ | _⟩ := x <;> simp [← bind_pure_comp, bind_eq, Run.bind]

theorem outcome_attempt_eq_done_iff {r : Except Failure α} :
    x.attempt.outcome = .done r ↔
      (∃ a, x.outcome = .done a ∧ r = .ok a) ∨ ∃ f, x.outcome = .raised f ∧ r = .error f := by
  obtain ⟨events, _ | _ | _⟩ := x <;> simp [attempt, eq_comm]

theorem events_attempt : x.attempt.events = x.events := by
  obtain ⟨events, _ | _ | _⟩ := x <;> rfl

end Run
end Phrasebook
