import Phrasebook.Event
import Phrasebook.Template.Split

namespace Phrasebook

theorem exists_first {α : Type} (P : α → Prop) (items : List α) :
    (∀ item ∈ items, ¬ P item) ∨
      ∃ before item after, items = before ++ item :: after ∧ (∀ i ∈ before, ¬ P i) ∧ P item := by
  classical
  cases h : items.find? fun item => P item
  case none => exact .inl (by simpa using h)
  case some item =>
    have ⟨hp, before, after, hs, hb⟩ := List.find?_eq_some_iff_append.1 h
    exact .inr ⟨before, item, after, hs, by simpa using hb, by simpa using hp⟩

namespace Run

variable {ε α β : Type}

-- The run was not cut short for want of fuel.
def Fed (x : Run ε α) : Prop :=
  x.outcome ≠ .starved

def Ends (x : Run ε α) : Prop :=
  ∃ a, x.outcome = .done a

variable {x : Run ε α} {f : α → Run ε β} {failure : Failure}

theorem outcome_bind_eq_raised_iff :
    (x >>= f).outcome = .raised failure ↔
      x.outcome = .raised failure ∨
        ∃ a, x.outcome = .done a ∧ (f a).outcome = .raised failure := by
  obtain ⟨events, _ | _ | _⟩ := x <;> simp [bind_eq, Run.bind]

theorem outcome_map_eq_raised_iff {g : α → β} :
    (g <$> x).outcome = .raised failure ↔ x.outcome = .raised failure := by
  simp [← bind_pure_comp, outcome_bind_eq_raised_iff]

theorem events_bind_of_raised (h : x.outcome = .raised failure) : (x >>= f).events = x.events := by
  simp [bind_eq, Run.bind, h]

theorem mem_events_bind {e : ε} :
    e ∈ (x >>= f).events ↔ e ∈ x.events ∨ ∃ a, x.outcome = .done a ∧ e ∈ (f a).events := by
  obtain ⟨events, _ | _ | _⟩ := x <;> simp [bind_eq, Run.bind]

theorem events_ofExcept {r : Except Failure α} : (ofExcept r : Run ε α).events = [] := by
  cases r <;> rfl

theorem events_prefix_bind : x.events <+: (x >>= f).events := by
  obtain ⟨events, _ | _ | _⟩ := x
  case done => exact List.prefix_append ..
  all_goals exact List.prefix_rfl

theorem events_suffix_bind {a : α} (h : x.outcome = .done a) :
    (f a).events <:+ (x >>= f).events :=
  events_bind h ▸ List.suffix_append ..

theorem bind_of_done {a : α} (h : x.outcome = .done a) :
    x >>= f = ⟨x.events ++ (f a).events, (f a).outcome⟩ := by
  simp [bind_eq, Run.bind, h]

theorem bind_of_raised (h : x.outcome = .raised failure) :
    x >>= f = ⟨x.events, .raised failure⟩ := by
  simp [bind_eq, Run.bind, h]

theorem map_done {g : α → β} {events : List ε} {a : α} :
    g <$> (⟨events, .done a⟩ : Run ε α) = ⟨events, .done (g a)⟩ := by
  simp [← bind_pure_comp, bind_eq, pure_eq, Run.bind]

theorem ne_raised_of_done {a : α} (h : x.outcome = .done a) (failure : Failure) :
    x.outcome ≠ .raised failure :=
  fun hr => nomatch h.symm.trans hr

theorem ne_raised_of_starved (h : x.outcome = .starved) (failure : Failure) :
    x.outcome ≠ .raised failure :=
  fun hr => nomatch h.symm.trans hr

theorem emit_bind {e : ε} {y : Run ε α} :
    (emit e >>= fun _ => y) = ⟨e :: y.events, y.outcome⟩ := by
  obtain ⟨events, _ | _ | _⟩ := y <;> rfl

namespace Fed

theorem pure {a : α} : (pure a : Run ε α).Fed :=
  nofun

theorem emit {e : ε} : (emit e).Fed :=
  nofun

theorem raise : (raise failure : Run ε α).Fed :=
  nofun

theorem ofExcept {r : Except Failure α} : (ofExcept r : Run ε α).Fed := by
  cases r <;> nofun

theorem bind (hx : x.Fed) (hf : ∀ a, (f a).Fed) : (x >>= f).Fed := by
  obtain ⟨events, a | _ | _⟩ := x
  case done => exact hf a
  case raised => nofun
  case starved => exact absurd rfl hx

theorem map {g : α → β} (hx : x.Fed) : (g <$> x).Fed := by
  rw [← bind_pure_comp]
  exact hx.bind fun _ => .pure

theorem exists_raised (hx : x.Fed) (h : ¬ x.Ends) : ∃ failure, x.outcome = .raised failure := by
  cases ho : x.outcome
  case done a => exact absurd ⟨a, ho⟩ h
  case raised failure => exact ⟨failure, rfl⟩
  case starved => exact absurd ho hx

theorem renderM {gap content : List Char → Run ε (List Char)} (hg : ∀ g, (gap g).Fed)
    (hc : ∀ c, (content c).Fed) (s : Template.Split) : (s.renderM gap content).Fed := by
  induction s using Template.Split.consInduction
  case plain tail => exact hg tail
  case cons p marked tail ih =>
    rw [Template.Split.renderM_cons]
    exact (hg p.1).bind fun _ => (hc p.2).bind fun _ => ih.bind fun _ => .pure

end Fed

namespace Ends

theorem pure {a : α} : (pure a : Run ε α).Ends :=
  ⟨a, rfl⟩

theorem fed (hx : x.Ends) : x.Fed := by
  have ⟨_, h⟩ := hx
  exact fun hs => nomatch h.symm.trans hs

theorem bind (hx : x.Ends) (hf : ∀ a, (f a).Ends) : (x >>= f).Ends := by
  have ⟨a, ha⟩ := hx
  have ⟨b, hb⟩ := hf a
  exact ⟨b, outcome_bind_eq_done_iff.2 ⟨a, ha, hb⟩⟩

theorem map {g : α → β} (hx : x.Ends) : (g <$> x).Ends := by
  rw [← bind_pure_comp]
  exact hx.bind fun _ => .pure

theorem attempt (hx : x.Fed) : x.attempt.Ends := by
  cases h : x.outcome
  case done a => exact ⟨.ok a, outcome_attempt_eq_done_iff.2 (.inl ⟨a, h, rfl⟩)⟩
  case raised failure => exact ⟨.error failure, outcome_attempt_eq_done_iff.2 (.inr ⟨_, h, rfl⟩)⟩
  case starved => exact absurd h hx

end Ends

def forget (x : Run ε α) : Run ε Unit :=
  (fun _ => ()) <$> x

@[simp]
theorem events_forget : x.forget.events = x.events :=
  events_map

@[simp]
theorem outcome_forget_eq_raised_iff :
    x.forget.outcome = .raised failure ↔ x.outcome = .raised failure :=
  outcome_map_eq_raised_iff

theorem eq_of_forget_of_raised {events : List ε} (h : x.forget = ⟨events, .raised failure⟩) :
    x = ⟨events, .raised failure⟩ := by
  have ho := outcome_forget_eq_raised_iff.1 (congrArg outcome h)
  have he := events_forget.symm.trans (congrArg Run.events h)
  obtain ⟨_, _⟩ := x
  cases ho
  cases he
  rfl

theorem outcome_forget_eq_done_iff : x.forget.outcome = .done () ↔ x.Ends := by
  simp [forget, outcome_map_eq_done_iff, Ends]

theorem eq_of_forget_of_done {events : List ε} {a : α} (h : x.forget = ⟨events, .done ()⟩)
    (ha : x.outcome = .done a) : x = ⟨events, .done a⟩ := by
  have he := events_forget.symm.trans (congrArg Run.events h)
  obtain ⟨_, _⟩ := x
  cases ha
  cases he
  rfl

theorem forget_map {g : α → β} : (g <$> x).forget = x.forget := by
  simp [forget]

theorem forget_bind : (x >>= f).forget = x >>= fun a => (f a).forget := by
  simp [forget]

theorem forget_seq {y : Run ε β} : (x.forget >>= fun _ => y) = x >>= fun _ => y := by
  simp [forget]

def inTurn (run : β → Run ε α) : List β → Run ε Unit
  | [] => pure ()
  | item :: items => do
    let _ ← run item
    inTurn run items

section InTurn

variable {run : β → Run ε α} {items items' before after : List β} {item : β}

theorem inTurn_append :
    inTurn run (items ++ items') = (inTurn run items >>= fun _ => inTurn run items') := by
  induction items
  case nil => simp [inTurn]
  case cons item items ih => simp [inTurn, ih]

theorem inTurn_of_ends (h : ∀ item ∈ items, (run item).Ends) :
    inTurn run items = ⟨items.flatMap fun item => (run item).events, .done ()⟩ := by
  induction items
  case nil => rfl
  case cons item items ih =>
    have ⟨a, ha⟩ := h item List.mem_cons_self
    have hi := ih fun i hi => h i (List.mem_cons_of_mem _ hi)
    simp [inTurn, bind_eq, Run.bind, ha, hi]

theorem inTurn_of_not_ends (hb : ∀ item ∈ before, (run item).Ends) (hn : ¬ (run item).Ends) :
    inTurn run (before ++ item :: after) =
      ⟨(before ++ [item]).flatMap fun item => (run item).events, (run item).forget.outcome⟩ := by
  rw [inTurn_append, inTurn_of_ends hb]
  cases h : (run item).outcome
  case done a => exact absurd ⟨a, h⟩ hn
  all_goals simp [inTurn, forget, ← bind_pure_comp, bind_eq, Run.bind, h]

theorem exists_of_not_ends_inTurn (h : ¬ (inTurn run items).Ends) :
    ∃ before item after, items = before ++ item :: after ∧ (∀ i ∈ before, (run i).Ends) ∧
      ¬ (run item).Ends := by
  rcases exists_first (fun i => ¬ (run i).Ends) items with he | ⟨before, item, after, hs, hb, hn⟩
  case inl => exact absurd ⟨(), by rw [inTurn_of_ends fun i hi => Classical.not_not.1 (he i hi)]⟩ h
  case inr => exact ⟨before, item, after, hs, fun i hi => Classical.not_not.1 (hb i hi), hn⟩

theorem inTurn_of_raised (hb : ∀ item ∈ before, (run item).Ends)
    (hr : (run item).outcome = .raised failure) :
    inTurn run (before ++ item :: after) =
      ⟨(before ++ [item]).flatMap fun item => (run item).events, .raised failure⟩ := by
  rw [inTurn_of_not_ends hb fun ⟨_, h⟩ => ne_raised_of_done h failure hr,
    outcome_forget_eq_raised_iff.2 hr]

theorem exists_of_outcome_inTurn (h : (inTurn run items).outcome = .raised failure) :
    ∃ before item after, items = before ++ item :: after ∧ (∀ i ∈ before, (run i).Ends) ∧
      (run item).outcome = .raised failure := by
  have ⟨before, item, after, hi, hb, hn⟩ :=
    exists_of_not_ends_inTurn fun ⟨_, he⟩ => ne_raised_of_done he failure h
  refine ⟨before, item, after, hi, hb, ?_⟩
  rwa [hi, inTurn_of_not_ends hb hn, outcome_forget_eq_raised_iff] at h

theorem ends_of_mem_of_inTurn (h : (inTurn run items).Ends) : ∀ item ∈ items, (run item).Ends := by
  induction items
  case nil => nofun
  case cons item items ih =>
    have ⟨_, h⟩ := h
    have ⟨a, ha, h⟩ := outcome_bind_eq_done_iff.1 h
    exact List.forall_mem_cons.2 ⟨⟨a, ha⟩, ih ⟨_, h⟩⟩

theorem mem_events_inTurn {e : ε} (h : e ∈ (inTurn run items).events) :
    ∃ item ∈ items, e ∈ (run item).events ∧
      (run item).events <:+: (inTurn run items).events := by
  induction items
  case nil => cases h
  case cons item items ih =>
    rcases mem_events_bind.1 h with he | ⟨a, ha, he⟩
    case inl => exact ⟨item, List.mem_cons_self, he, events_prefix_bind.isInfix⟩
    case inr =>
      have ⟨i, hi, he, hp⟩ := ih he
      have hs := events_suffix_bind (f := fun _ => inTurn run items) ha
      exact ⟨i, List.mem_cons_of_mem _ hi, he, hp.trans hs.isInfix⟩

theorem forall_mem_events_inTurn {P : ε → Prop}
    (h : ∀ item ∈ items, ∀ e ∈ (run item).events, P e) : ∀ e ∈ (inTurn run items).events, P e := by
  intro e he
  have ⟨item, hi, he, _⟩ := mem_events_inTurn he
  exact h item hi e he

theorem inTurn_flatMap {γ : Type} {part : γ → List β} {whole : γ → Run ε Unit} {parts : List γ}
    (h : ∀ c ∈ parts, whole c = inTurn run (part c)) :
    inTurn whole parts = inTurn run (parts.flatMap part) := by
  induction parts
  case nil => rfl
  case cons c parts ih =>
    rw [List.flatMap_cons, inTurn_append, inTurn, h c List.mem_cons_self,
      ih fun d hd => h d (List.mem_cons_of_mem _ hd)]

theorem inTurn_forget : inTurn (fun item => (run item).forget) items = inTurn run items := by
  induction items
  case nil => rfl
  case cons item items ih => rw [inTurn, inTurn, forget_seq, ih]

end InTurn
end Run
end Phrasebook
