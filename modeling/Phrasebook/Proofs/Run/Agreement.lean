import Phrasebook.Event
import Phrasebook.Template.Split

namespace Phrasebook

variable {ι α β : Type}

namespace Options

def withLimit (o : Options ι) (limit : Setting Int) : Options ι :=
  { o with depthLimit := limit }

variable (o : Options ι) (limit : Setting Int)

@[simp]
theorem withLimit_depthLimit : (o.withLimit limit).depthLimit = limit :=
  rfl

@[simp]
theorem withLimit_formats : (o.withLimit limit).formats = o.formats :=
  rfl

@[simp]
theorem withLimit_keySeparator : (o.withLimit limit).keySeparator = o.keySeparator :=
  rfl

@[simp]
theorem withLimit_escapes : (o.withLimit limit).escapes = o.escapes :=
  rfl

end Options

-- A call to the store or to a formatter. The limit in its options is left open, so that calls under
-- different limits can be compared.
def Act.call? : Act ι → Option (Act ι)
  | retrieve l ns key o => some (retrieve l ns key (o.withLimit .unset))
  | format f v name l o => some (format f v name l (o.withLimit .unset))
  | _ => none

namespace Run

def calls (x : Run (Event ι) α) : List (Act ι) :=
  x.events.filterMap (·.act.call?)

def Gives (x : Run (Event ι) (Option String)) (s : String) (calls : List (Act ι)) : Prop :=
  x.outcome = .done (some s) ∧ x.calls = calls

def Agrees (P : α → Prop) (x y : Run (Event ι) α) : Prop :=
  ∀ a, P a → x.outcome = .done a → y.outcome = .done a ∧ y.calls = x.calls

variable {x y : Run (Event ι) α} {f g : α → Run (Event ι) β} {P : α → Prop} {Q : β → Prop}

theorem calls_bind {a : α} (h : x.outcome = .done a) :
    (x >>= f).calls = x.calls ++ (f a).calls := by
  simp [calls, events_bind h]

namespace Agrees

theorem refl (x : Run (Event ι) α) : x.Agrees P x :=
  fun _ _ h => ⟨h, rfl⟩

theorem of_ne (h : ∀ a, P a → x.outcome ≠ .done a) : x.Agrees P y :=
  fun a ha hx => absurd hx (h a ha)

theorem of_raise {failure : Failure} : (raise failure).Agrees P y :=
  .of_ne fun _ _ => outcome_raise_ne_done

theorem of_starved : starved.Agrees P y :=
  .of_ne fun _ _ => outcome_starved_ne_done

theorem gives {x y : Run (Event ι) (Option String)} {s : String} {calls : List (Act ι)}
    (h : x.Agrees (·.isSome) y) : x.Gives s calls → y.Gives s calls
  | ⟨hx, hc⟩ =>
    have ⟨hy, hd⟩ := h _ rfl hx
    ⟨hy, hd.trans hc⟩

theorem bind (h : x.Agrees P y) (hp : ∀ a b, Q b → (f a).outcome = .done b → P a)
    (hf : ∀ a, P a → (f a).Agrees Q (g a)) : (x >>= f).Agrees Q (y >>= g) := by
  intro b hb hx
  have ⟨a, ha, hfa⟩ := outcome_bind_eq_done_iff.1 hx
  have ⟨hy, hc⟩ := h a (hp a b hb hfa) ha
  have ⟨hg, hd⟩ := hf a (hp a b hb hfa) b hb hfa
  exact ⟨outcome_bind_eq_done_iff.2 ⟨a, hy, hg⟩, by rw [calls_bind hy, calls_bind ha, hc, hd]⟩

theorem seq (h : x.Agrees (fun _ => True) y) (hf : ∀ a, (f a).Agrees Q (g a)) :
    (x >>= f).Agrees Q (y >>= g) :=
  h.bind (fun _ _ _ _ => trivial) fun a _ => hf a

theorem map {k : α → β} (h : x.Agrees (fun a => Q (k a)) y) : (k <$> x).Agrees Q (k <$> y) := by
  intro b hb hx
  obtain ⟨a, ha, rfl⟩ := outcome_map_eq_done_iff.1 hx
  have ⟨hy, hc⟩ := h a hb ha
  exact ⟨outcome_map_eq_done_iff.2 ⟨a, hy, rfl⟩, by simpa [calls, events_map] using hc⟩

theorem emit {site site' : Site ι} {act act' : Act ι} {P : Unit → Prop}
    (h : act.call? = act'.call?) : (site.emit act).Agrees P (site'.emit act') :=
  fun _ _ _ => ⟨rfl, by simp [calls, Site.emit, Run.emit, List.filterMap_cons, h]⟩

theorem attempt (h : x.Agrees (fun _ => True) y) :
    x.attempt.Agrees (fun r => r.toBool) y.attempt := by
  intro r hr hx
  obtain ⟨a, ha, rfl⟩ | ⟨failure, _, rfl⟩ := outcome_attempt_eq_done_iff.1 hx
  case inl =>
    have ⟨hy, hc⟩ := h a trivial ha
    exact ⟨outcome_attempt_eq_done_iff.2 (.inl ⟨a, hy, rfl⟩), by
      simpa [calls, events_attempt] using hc⟩
  case inr => simp [Except.toBool] at hr

theorem renderM {gap content gap' content' : List Char → Run (Event ι) (List Char)}
    (hg : ∀ g, (gap g).Agrees (fun _ => True) (gap' g))
    (hc : ∀ c, (content c).Agrees (fun _ => True) (content' c)) (s : Template.Split) :
    (s.renderM gap content).Agrees (fun _ => True) (s.renderM gap' content') := by
  induction s using Template.Split.consInduction
  case plain tail => exact hg tail
  case cons p marked tail ih =>
    simp only [Template.Split.renderM_cons]
    exact (hg p.1).seq fun _ => (hc p.2).seq fun _ => ih.seq fun _ => .refl _

end Agrees
end Run
end Phrasebook
