import Phrasebook.Proofs.Resolution.Containment
import Phrasebook.Proofs.Resolution.Occurrences

namespace Phrasebook

variable {ι : Type}

-- Whatever is called is given the locale and the options, a formatter perhaps without escapes.
def Act.Keeps (l : Locale) (o : Options ι) : Act ι → Prop
  | retrieve l' _ _ o' | pluralize l' _ o' | nest _ l' _ o' | fail _ l' _ _ _ o' _
  | miss _ l' _ _ o' => l' = l ∧ o' = o
  | format _ _ _ l' o' => l' = l ∧ (o' = o ∨ o' = { o with escapes := .set false })
  | render .. | fallback _ | notice _ => True

namespace Template

variable {site : Site ι} {bag : Bag} {template : String} {content t : List Char} {e : Event ι}

def Variable.Shows (v : Variable) (site : Site ι) (bag : Bag) (escaped : Bool) (t : List Char) :
    Prop :=
  ∃ value s, bag.lookup? v.name site.options.keySeparator.value? = some value ∧
    (∀ refuse, (plainText site refuse value v.format).outcome = .done s) ∧
    t = if escaped then Markup.escape s.toList else s.toList

theorem variableText_shows (h : (variableText site bag template content).outcome = .done t) :
    let v := Variable.parse site.options content
    v.Shows site bag (!(v.raw || site.options.escapes.value? == some false)) t := by
  simp only [variableText, Variable.text] at h
  split at h
  case isTrue => exact absurd h Run.outcome_raise_ne_done
  case isFalse =>
    split at h
    case h_1 | h_2 => exact absurd h Run.outcome_raise_ne_done
    case h_3 value _ hv =>
      obtain ⟨s, hs, h⟩ := Run.outcome_bind_eq_done_iff.1 h
      refine ⟨value, s, hv, fun _ => outcome_plainText_of_done hs, ?_⟩
      split at h
      case isTrue hr =>
        cases h
        simp [hr]
      case isFalse hr =>
        cases h
        simp [hr]

-- The call of a formatter, and the options that it is given: for a variable of a template, or for
-- one of the own variables of a nested key that is there when the template is filled in.
inductive Asks (inner : Site ι) (bag : Bag) (template : String) (e : Event ι) : Options ι → Prop
  | template {content : List Char}
      (hc : content ∈
        (inner.options.nestingMarks.split template.toList).variables inner.options)
      (h : e ∈ (variableText inner bag template content).events) :
      Asks inner bag template e inner.options
  | own {filled : String} {token content : List Char}
      (hf : (interpolateAround inner bag template).outcome = .done filled)
      (ht : token ∈ (inner.options.nestingMarks.split filled.toList).contents)
      (hc : content ∈ (inner.options.variableMarks.split
        (Nested.parse inner.options token).inner.toList).contents)
      (h : e ∈ (variableText { inner with options := { inner.options with escapes := .set false } }
        bag (Nested.parse inner.options token).inner content).events) :
      Asks inner bag template e { inner.options with escapes := .set false }

theorem exists_variable_of_interpolateAround
    (h : e ∈ (interpolateAround site bag template).events) :
    ∃ content ∈ (site.options.nestingMarks.split template.toList).variables site.options,
      e ∈ (variableText site bag template content).events := by
  rw [← Run.events_forget, forget_interpolateAround] at h
  have ⟨content, hc, he, _⟩ := Run.mem_events_inTurn h
  exact ⟨content, hc, he⟩

theorem exists_variable_of_interpolate (h : e ∈ (interpolate site bag template).events) :
    ∃ content ∈ (site.options.variableMarks.split template.toList).contents,
      e ∈ (variableText site bag template content).events := by
  rw [← Run.events_forget, forget_interpolate] at h
  have ⟨content, hc, he, _⟩ := Run.mem_events_inTurn h
  exact ⟨content, hc, he⟩

end Template

namespace Resolution

open Template

section Levels

variable {host : Host ι} {l : Locale} {o : Options ι}

-- The resolver that keeps to a locale and options, whatever is handed to it.
def pinned (host : Host ι) (l : Locale) (o : Options ι) : Nat → Scope → Resolver ι
  | 0 => fun _ _ _ _ _ => .starved
  | fuel + 1 => fun scope raw _ bag _ => resolve (pinned host l o fuel) host scope raw l bag o

theorem level_eq_pinned (n : Nat) (scope : Scope) (raw : String) (bag : Bag) (l' : Locale)
    (o' : Options ι) : level host n scope raw l bag o = pinned host l o n scope raw l' bag o' := by
  induction n generalizing scope raw bag l' o'
  case zero => rfl
  case succ n ih => exact resolveIn_rel .eq fun _ _ _ raw own => ih _ raw own l o

theorem Does.keeps {site : Site ι} {act : Act ι} (h : Does site act) :
    act.Keeps site.locale site.options := by
  cases h
  case notice => trivial
  all_goals exact ⟨rfl, rfl⟩

variable {u : Lookup ι} {template : String} {e : Event ι} {events : List (Event ι)}
  {chain : List Frame}

theorem Lookup.Renders.keeps (h : u.Renders template e) :
    e.act.Keeps u.site.locale u.site.options := by
  cases h
  case opening => trivial
  case filling h =>
    obtain ⟨_, _, _, rfl⟩ := interpolateAround_formats e h
    exact ⟨rfl, .inl rfl⟩
  case own h =>
    obtain ⟨_, _, _, rfl⟩ := interpolate_formats e h
    exact ⟨rfl, .inr rfl⟩
  case nesting => exact ⟨rfl, rfl⟩

theorem Occurs.keeps (h : Occurs host l o events chain e) : e.act.Keeps l o := by
  induction h
  case level h => exact h.keeps
  case rendering h => exact h.keeps
  case nested ih => exact ih

theorem Occurs.asks (h : Occurs host l o events chain e) {formatter : ι} {value : Value}
    {name : String} {l' : Locale} {o' : Options ι}
    (ha : e.act = .format formatter value name l' o') :
    ∃ f template bag, ⟨e.chain, .render f template bag⟩ ∈ events ∧
      Asks ⟨host, l, o, e.chain⟩ bag template e o' := by
  induction h
  case level h => cases h <;> cases ha
  case nested ih => exact ih ha
  case rendering chain ns key template bag e ho h =>
    cases h
    case opening => cases ha
    case nesting => cases ha
    case filling h =>
      have ⟨content, hc, he⟩ := exists_variable_of_interpolateAround h
      obtain ⟨_, _, _, rfl⟩ := interpolateAround_formats e h
      cases ha
      exact ⟨_, template, bag, ho.opening_mem, .template hc he⟩
    case own hf ht h =>
      have ⟨content, hc, he⟩ := exists_variable_of_interpolate h
      obtain ⟨_, _, _, rfl⟩ := interpolate_formats e h
      cases ha
      exact ⟨_, template, bag, ho.opening_mem, .own hf ht hc he⟩

theorem Occurs.fills (h : Occurs host l o events chain e) {f : Frame} {template : String}
    {bag : Bag} (ha : e.act = .render f template bag) :
    e :: (interpolateAround ⟨host, l, o, e.chain⟩ bag template).events <:+: events := by
  induction h
  case level h => cases h <;> cases ha
  case nested ih => exact ih ha
  case rendering ho h =>
    cases h
    case opening =>
      cases ha
      exact ho.filling
    case nesting => cases ha
    case filling h =>
      obtain ⟨_, _, _, rfl⟩ := interpolateAround_formats _ h
      cases ha
    case own h =>
      obtain ⟨_, _, _, rfl⟩ := interpolate_formats _ h
      cases ha

end Levels
end Resolution

inductive Request.Concludes (r : Request ι) : Act ι → Prop
  | unresolved {n : Notice} : Concludes r (.notice n)
  | fallback {key : String} : Concludes r (.fallback key)
  | miss {handler : ι} {key : String} :
      Concludes r (.miss handler r.locale key r.bag r.options)

theorem Request.Concludes.keeps {r : Request ι} {act : Act ι} (h : r.Concludes act) :
    act.Keeps r.locale r.options := by
  cases h
  case miss => exact ⟨rfl, rfl⟩
  all_goals trivial

structure Steady (host : Host ι) (l : Locale) (o : Options ι) (events : List (Event ι)) : Prop where
  keeps : ∀ e ∈ events, e.act.Keeps l o
  -- A formatter is called for a variable, which stands in a template that is being rendered or
  -- among the own variables of a nested key in it.
  asks : ∀ e ∈ events, ∀ formatter value name l' o', e.act = .format formatter value name l' o' →
    ∃ f template bag, ⟨e.chain, .render f template bag⟩ ∈ events ∧
      Template.Asks ⟨host, l, o, e.chain⟩ bag template e o'
  -- The rendering of a template begins with its variables.
  fills : ∀ e ∈ events, ∀ f template bag, e.act = .render f template bag →
    let inner : Site ι := ⟨host, l, o, e.chain⟩
    e :: (Template.interpolateAround inner bag template).events <:+: events ∧
    ∀ content ∈ (o.nestingMarks.split template.toList).variables o, ∀ t,
      (Template.variableText inner bag template content).outcome = .done t →
      let v := Template.Variable.parse o content
      v.Shows inner bag (!(v.raw || o.escapes.value? == some false)) t

namespace Localizer

open Resolution Template

variable {l : Localizer ι} {q : Query ι} {r : Request ι} {e : Event ι}
  {orElse : Option (String → Except Failure (Option String))}

theorem mem_events_answer (he : e ∈ (l.answer r).events) :
    e ∈ (l.resolution r).events ∨ r.Concludes e.act := by
  rw [answer_eq] at he
  rcases List.mem_append.1 he with he | he
  case inl => exact .inl he
  case inr =>
    split at he
    case isTrue =>
      cases List.mem_singleton.1 he
      exact .inr .unresolved
    case isFalse => cases he

theorem mem_events_instead {key : String} (he : e ∈ (l.instead r key orElse).events) :
    r.Concludes e.act := by
  unfold instead at he
  split at he
  case h_1 =>
    rw [Run.emit_bind, Run.events_ofExcept] at he
    exact List.mem_singleton.1 he ▸ .fallback
  case h_2 handler _ =>
    rw [Run.emit_bind, bind_pure_comp, Run.events_map, Run.events_ofExcept] at he
    exact List.mem_singleton.1 he ▸ .miss
  case h_3 => cases he

theorem mem_events_text (hr : l.request q = .ok r) (he : e ∈ (l.text q orElse).events) :
    e ∈ (l.resolution r).events ∨ r.Concludes e.act := by
  rw [text_of_request hr] at he
  rcases Run.mem_events_bind.1 he with he | ⟨found, _, he⟩
  case inl => exact mem_events_answer he
  case inr =>
    cases found
    case none => exact .inr (mem_events_instead he)
    case some => cases he

theorem resolution_prefix_answer : (l.resolution r).events <+: (l.answer r).events := by
  rw [answer_eq]
  exact List.prefix_append ..

theorem answer_prefix_text (hr : l.request q = .ok r) :
    (l.answer r).events <+: (l.text q orElse).events :=
  text_of_request hr ▸ Run.events_prefix_bind

theorem steady_of_resolution {events : List (Event ι)} (hp : (l.resolution r).events <+: events)
    (h : ∀ e ∈ events, e ∈ (l.resolution r).events ∨ r.Concludes e.act) :
    Steady l.host r.locale r.options events := by
  have ho : ∀ e ∈ events,
      Occurs l.host r.locale r.options events [] e ∨ r.Concludes e.act := fun e he =>
    (h e he).imp_left fun he => (level_traced _ {} r.key r.bag e he).mono hp.isInfix
  exact
    { keeps e he := (ho e he).elim Occurs.keeps Request.Concludes.keeps
      asks e he _ _ _ _ _ ha := (ho e he).elim (·.asks ha) fun hc => nomatch ha ▸ hc
      fills e he _ _ _ ha := by
        rcases ho e he with ho | hc
        case inl => exact ⟨ho.fills ha, fun _ _ _ => variableText_shows⟩
        case inr => cases ha ▸ hc }

-- A resolution is the same whatever locale and options are handed from one level to the next, and
-- the host is never asked for anything with others than those of the request. A formatter is called
-- without escapes only for the own variables of a nested key; the variables of every template are
-- escaped as the request has it, wherever their values come from.
theorem locale_and_options_stay (l : Localizer ι) (q : Query ι)
    (orElse : Option (String → Except Failure (Option String))) :
    (∀ failure, l.request q = .error failure →
      (l.text? q).events = [] ∧ (l.text q orElse).events = []) ∧
    ∀ r, l.request q = .ok r → r.options = l.effective q.options ∧
      (∀ l' o', l.resolution r =
        pinned l.host r.locale r.options (fuel r.options []) {} r.key l' r.bag o') ∧
      Steady l.host r.locale r.options (l.text? q).events ∧
      Steady l.host r.locale r.options (l.text q orElse).events := by
  refine ⟨fun failure hr => ?_, fun r hr =>
    ⟨options_of_request hr, level_eq_pinned _ _ _ _, ?_, ?_⟩⟩
  case refine_1 => simp [text?, text, hr, Run.ofExcept, Run.raise, Run.bind_eq, Run.bind]
  case refine_2 =>
    rw [text?_of_request hr]
    exact steady_of_resolution resolution_prefix_answer fun e he => mem_events_answer he
  case refine_3 =>
    refine steady_of_resolution ?_ fun e he => mem_events_text hr he
    exact resolution_prefix_answer.trans (answer_prefix_text hr)

theorem box_escapes_its_value :
    let templates : Members String :=
      [("page", "$t(box, \x7b\"w\": \"\x7b\x7bv, loud\x7d\x7d\"\x7d) \x7b\x7bv, loud\x7d\x7d"),
        ("box", "[\x7b\x7bw\x7d\x7d]")]
    let host : Host Unit :=
      { retrieve _ _ key _ := .ok (templates.get? key)
        format _ v _ _ _ := .ok (some (.text (v.shown ++ "!")))
        missing _ _ _ _ _ := .ok none
        failed _ _ _ _ _ _ _ := .ok none
        rules := [] }
    let l : Localizer Unit := ⟨⟨"en", none⟩, host, { formats := .set [("loud", ())] }⟩
    let q : Query Unit := ⟨"page", some (.tag "de"), none, none, [("v", .text "<b>")], none⟩
    let run := l.text? q
    let escapes := run.events.filterMap fun e =>
      match e.act with
      | .format _ _ _ _ o => some (o.escapes.value?)
      | _ => none
    run.outcome = .done (some "[&lt;b&gt;!] &lt;b&gt;!") ∧
      escapes = [some true, some false] ∧
      Steady host ⟨"de", none⟩ (l.effective none) run.events := by
  intro templates host l q run escapes
  have hr : l.request q = .ok ⟨"page", ⟨"de", none⟩, q.bag, l.effective none⟩ := by rfl
  have hs := ((locale_and_options_stay l q none).2 _ hr).2.2.1
  exact ⟨by decide +kernel, by decide +kernel, hs⟩

end Localizer
end Phrasebook
