import Phrasebook.Localizer
import Phrasebook.Proofs.Resolution.Commitment
import Phrasebook.Proofs.Resolution.Unwinding
import Phrasebook.Reporting

namespace Phrasebook

variable {ι : Type}

def notices (events : List (Event ι)) : List Notice :=
  events.filterMap fun e =>
    match e.act with
    | .notice n => some n
    | _ => none

theorem notices_append {events events' : List (Event ι)} :
    notices (events ++ events') = notices events ++ notices events' :=
  List.filterMap_append

theorem Reporting.records_of_debug {report : Report} (h : report.enabled .debug)
    (ns : List Notice) : report.records ns = ns.map Notice.record := by
  have hl : ∀ n ∈ ns, report.enabled n.level := by
    intro n _
    simp only [Report.enabled, decide_eq_true_eq] at h ⊢
    refine Nat.le_trans h ?_
    cases n.level <;> decide
  rw [Report.records, List.filter_eq_self.2 hl]

def Host.Declines (host : Host ι) (handler : OnFailure ι) (o : Options ι) : Prop :=
  ∀ name, handler = .handler name →
    ∀ l ns key bag failure, host.failed name l ns key bag o failure = .ok none

namespace Resolution

open Template

def Stop.warnings (handler : OnFailure ι) (s : Stop ι) : List Notice :=
  match handler with
  | .warn => [.failed s.site.locale.tag s.ns s.key s.failure]
  | .handler _ => []

def Stop.handled (handler : OnFailure ι) (s : Stop ι) : List (Event ι) :=
  ⟨s.site.chain, .fail handler s.site.locale s.ns s.key s.bag s.site.options s.failure⟩ ::
    (s.warnings handler).map fun n => ⟨s.site.chain, .notice n⟩

variable {handler : OnFailure ι} {o : Options ι}

theorem notices_handled (s : Stop ι) : notices (s.handled handler) = s.warnings handler := by
  cases handler <;> rfl

theorem notices_flatMap_handled (stops : List (Stop ι)) :
    notices (stops.flatMap (Stop.handled handler)) = stops.flatMap (Stop.warnings handler) := by
  induction stops
  case nil => rfl
  case cons s stops ih =>
    rw [List.flatMap_cons, List.flatMap_cons, notices_append, notices_handled, ih]

theorem handling_eq_handled {s : Stop ι} (hh : s.site.options.onFailure.value? = some handler)
    (hm : s.site.host.Declines handler s.site.options) :
    s.handling = ⟨s.handled handler, .done none⟩ := by
  unfold Stop.handling recover
  rw [hh]
  cases handler
  case warn => rfl
  case handler name =>
    simp only [hm name rfl]
    rfl

theorem silent_of_declines {host : Host ι} (hh : o.onFailure.value? = some handler)
    (hd : host.Declines handler o) : host.Silent o := by
  intro name hn l ns key bag failure s h
  have heq := Option.some.inj (hh.symm.trans hn)
  cases (hd name heq l ns key bag failure).symm.trans h

theorem Unwound.handling_eq {host : Host ι} {n : Nat} {site : Site ι} {bag : Bag}
    {front : List (Event ι)} {stops : List (Stop ι)} (h : Unwound host n site bag front stops)
    (hh : site.options.onFailure.value? = some handler)
    (hd : site.host.Declines handler site.options) :
    ∀ s ∈ stops, s.handling = ⟨s.handled handler, .done none⟩ := by
  intro s hs
  have hc := h.common s hs
  refine handling_eq_handled ?_ ?_
  all_goals rw [hc]
  case refine_1 => exact hh
  case refine_2 => exact hd

theorem unwinding_eq_handled {stops : List (Stop ι)}
    (h : ∀ s ∈ stops, s.handling = ⟨s.handled handler, .done none⟩) :
    unwinding stops = stops.flatMap (Stop.handled handler) := by
  induction stops
  case nil => rfl
  case cons s stops ih =>
    have ⟨hs, h⟩ := List.forall_mem_cons.1 h
    have hi := ih h
    simp only [unwinding, List.flatMap_cons] at hi ⊢
    rw [hi, hs]

-- A search without a text that hits no open template and handles no failure has found no template.
theorem searchOr_misses {deeper : Scope → Resolver ι} {site : Site ι} {bag : Bag}
    {missed : Run (Event ι) (Option String)} {places : List (String × String)}
    (hc : site.chain = [])
    (hw : ∀ e ∈ (searchOr deeper site bag missed places).events, e.act.isWork)
    (h : (searchOr deeper site bag missed places).outcome = .done none) :
    ∀ p ∈ places, site.host.retrieve site.locale p.1 p.2 site.options = .ok none := by
  have ⟨looked, hs⟩ := searchOr_settles deeper site bag missed places
  generalize searchOr deeper site bag missed places = run at hs hw h
  cases hs
  case missed hd =>
    intro p hp
    exact Classical.not_not.1 fun ht => hd _ (List.mem_map_of_mem hp) (.inr ht)
  case cycle u ho hf =>
    obtain ⟨p, _, rfl⟩ := List.mem_map.1 hf.mem
    exact absurd (hc ▸ ho) List.not_mem_nil
  case rendered hn _ => exact absurd h hn
  case failed hh =>
    cases hh.eq_raise fun e he => hw e (by simp [he])
    cases h

end Resolution

namespace Localizer

open Resolution

variable {l : Localizer ι} {r : Request ι}

def Misses (l : Localizer ι) (r : Request ι) : Prop :=
  let key := Key.parse r.key r.options.nsSeparator.value?
  let site : Site ι := ⟨l.host, r.locale, r.options, []⟩
  ∃ keys, (candidates site key.path r.bag).outcome = .done keys ∧
    ∀ p ∈ places r.options (key.ns.getD "") keys,
      l.host.retrieve r.locale p.1 p.2 r.options = .ok none

theorem misses_of_works (hw : ∀ e ∈ (l.resolution r).events, e.act.isWork)
    (h : (l.resolution r).outcome = .done none) : l.Misses r := by
  unfold resolution resolver at h hw
  cases hn : fuel r.options [] <;> rw [hn] at h hw
  case zero => cases h
  case succ n =>
    simp only [level, resolve, resolveIn_eq_searchOr] at h hw
    obtain ⟨keys, hk, h⟩ := Run.outcome_bind_eq_done_iff.1 h
    rw [Run.events_bind hk] at hw
    exact ⟨keys, hk, searchOr_misses rfl (fun e he => hw e (List.mem_append_right _ he)) h⟩

theorem resolution_unwinds {handler : OnFailure ι}
    (hh : r.options.onFailure.value? = some handler) (hd : l.host.Declines handler r.options) :
    ∃ front stops, (∀ e ∈ front, e.act.isWork) ∧
      Unwound l.host (fuel r.options []) ⟨l.host, r.locale, r.options, []⟩ r.bag front stops ∧
      (l.resolution r).events = front ++ stops.flatMap (Stop.handled handler) ∧
      (∀ failure, (l.resolution r).outcome ≠ .raised failure) ∧
      (stops ≠ [] → (l.resolution r).outcome = .done none) := by
  have hc := resolution_course (silent_of_declines hh hd)
  generalize l.resolution r = x at hc ⊢
  cases hc
  case calm hw hr =>
    exact ⟨x.events, [], fun e he => (hw e he).work, .nil, (List.append_nil _).symm, hr,
      fun h => absurd rfl h⟩
  case broken front stops s hb =>
    have hu := hb.unwound
    have hs := hu.handling_eq hh hd
    have ho : s.handling.outcome = .done none := congrArg Run.outcome (hs s (by simp))
    refine ⟨front, stops ++ [s], fun e he => (hb.works e he).work, hu, ?_, ?_, fun _ => ho⟩
    case refine_1 => rw [unwinding_eq_handled hs]
    case refine_2 => exact Run.ne_raised_of_done ho

-- The first failure ends all work, at whatever depth it occurs. From there on the handler is called
-- once for each open level, deepest first; the first time for the failure itself, and then for the
-- nested key that has no text. No text is given after a failure, and no text is missed without one
-- unless there is no template.
theorem first_failure_unwinds (l : Localizer ι) (q : Query ι) {handler : OnFailure ι}
    (hh : (l.effective q.options).onFailure.value? = some handler)
    (hd : l.host.Declines handler (l.effective q.options)) :
    let run := l.text? q
    (∀ failure, l.request q = .error failure → run = ⟨[], .raised failure⟩) ∧
    ∀ r, l.request q = .ok r →
      let unresolved := Notice.unresolved r.key r.locale.tag
      ∃ front stops,
        run.events = front ++ stops.flatMap (Stop.handled handler) ++
          (if run.outcome = .done none then [⟨[], .notice unresolved⟩] else []) ∧
        (∀ e ∈ front, e.act.isWork) ∧
        Unwound l.host (fuel r.options []) ⟨l.host, r.locale, r.options, []⟩ r.bag front stops ∧
        (∀ below t s above, stops = below ++ t :: s :: above → ∃ filled content,
          s.nesting content t.bag ∈ front ∧
          s.failure = s.refusal filled content (.nestedMissing (s.nestedOf content).key)) ∧
        (∀ failure, run.outcome ≠ .raised failure) ∧
        (stops ≠ [] → run.outcome = .done none) ∧
        (run.outcome = .done none → stops = [] → l.Misses r) ∧
        ∀ report : Reporting.Report, report.enabled .debug →
          report.records (notices run.events) =
            (notices front ++ stops.flatMap (Stop.warnings handler) ++
              if run.outcome = .done none then [unresolved] else []).map Notice.record := by
  refine ⟨fun failure hr => by simp [text?, hr, Run.ofExcept, Run.raise, Run.bind_eq, Run.bind], ?_⟩
  intro r hr unresolved
  have hrun := text?_of_request hr
  have ho := options_of_request hr
  rw [← ho] at hh hd
  obtain ⟨front, stops, hw, hu, he, hn, hs⟩ := resolution_unwinds hh hd
  have hh := hu.handling_eq hh hd
  rw [hrun, answer_eq, he]
  refine ⟨front, stops, rfl, hw, hu, fun below t s above hl => ?_, hn, hs, fun h hl => ?_,
    fun report hd => ?_⟩
  case refine_1 =>
    obtain ⟨_, _, filled, _, content, _, hm, hp⟩ := hu.nested below t s above hl
    have ht := congrArg Run.outcome (hh t (by simp [hl]))
    exact ⟨filled, content, hm, hp.eq_of_done ht⟩
  case refine_2 =>
    refine misses_of_works ?_ h
    rw [he, hl, List.flatMap_nil, List.append_nil]
    exact hw
  case refine_3 =>
    rw [Reporting.records_of_debug hd, notices_append, notices_append, notices_flatMap_handled]
    split
    case isTrue => rfl
    case isFalse => rfl

theorem circle_unwinds :
    let templates : Members String := [("page", "Hi $t(box)"), ("box", "a $t(page)")]
    let host : Host Unit :=
      { retrieve _ _ key _ := .ok (templates.get? key)
        format _ _ _ _ _ := .ok none
        missing _ _ _ _ _ := .ok none
        failed _ _ _ _ _ _ _ := .ok none
        rules := [] }
    let l : Localizer Unit := ⟨⟨"en", none⟩, host, { onFailure := .set (.handler ()) }⟩
    let q : Query Unit := ⟨"page", none, none, none, [], none⟩
    (l.text? q).outcome = .done none ∧
      ∃ front, ∃ stops : List (Stop Unit), (∀ e ∈ front, e.act.isWork) ∧ stops.length = 2 ∧
        (l.text? q).events = front ++ stops.flatMap (Stop.handled (.handler ())) ++
          [⟨[], .notice (.unresolved "page" "en")⟩] := by
  intro templates host l q
  have hd : l.host.Declines (.handler ()) (l.effective q.options) := fun _ _ _ _ _ _ _ => rfl
  have ho : (l.text? q).outcome = .done none := by decide +kernel
  have ⟨front, stops, he, hw, _⟩ := (first_failure_unwinds l q rfl hd).2 _ rfl
  rw [if_pos ho] at he
  refine ⟨ho, front, stops, hw, ?_, he⟩
  have hf : front.countP (fun e => !e.act.isWork) = 0 := by
    refine List.countP_eq_zero.2 fun e h => ?_
    simp [hw e h]
  have hs (stops : List (Stop Unit)) : (stops.flatMap (Stop.handled (.handler ()))).countP
      (fun e => !e.act.isWork) = stops.length := by
    induction stops
    case nil => rfl
    case cons s stops ih =>
      rw [List.flatMap_cons, List.countP_append, ih, List.length_cons, Nat.add_comm]
      rfl
  have hn : (l.text? q).events.countP (fun e => !e.act.isWork) = 3 := by decide +kernel
  rw [he, List.countP_append, List.countP_append, hf, hs stops] at hn
  simpa [Act.isWork] using hn

end Localizer
end Phrasebook
