import Phrasebook.Localizer
import Phrasebook.Proofs.Resolution.Unwinding
import Phrasebook.Proofs.Run.Sameness

namespace Phrasebook

variable {ι : Type}

structure Host.IgnoresOnFailure (host : Host ι) : Prop where
  retrieve : ∀ l ns key o onFailure,
    host.retrieve l ns key (o.withOnFailure onFailure) = host.retrieve l ns key o
  format : ∀ f v name l o onFailure,
    host.format f v name l (o.withOnFailure onFailure) = host.format f v name l o

-- Failures are not handled, or by a handler that fails with just the failure it is given.
def Host.PassesOn (host : Host ι) (o : Options ι) : Prop :=
  ∀ handler, o.onFailure.value? = some handler → ∃ name, handler = .handler name ∧
    ∀ l ns key bag failure, host.failed name l ns key bag o failure = .error failure

def Site.treating (site : Site ι) (onFailure : Setting (OnFailure ι)) : Site ι :=
  { site with options := site.options.withOnFailure onFailure }

namespace Resolution

open Template

section Templates

variable {site : Site ι} {onFailure : Setting (OnFailure ι)}

theorem plainText_same (hh : site.host.IgnoresOnFailure) (refuse : Cause → Failure)
    (value : Value) :
    (format : Option String) →
      (Variable.plainText site refuse value format).Same
        (Variable.plainText (site.treating onFailure) refuse value format)
  | none => .refl _
  | some name => by
    have hf : (site.treating onFailure).options.formats = site.options.formats := rfl
    simp only [Variable.plainText, hf]
    cases ((site.options.formats.value?).getD []).get? name
    case none => exact .refl _
    case some formatter =>
      refine .bind (.emit rfl) fun _ _ => ?_
      have hv : (site.treating onFailure).host.format formatter value name
          (site.treating onFailure).locale (site.treating onFailure).options =
          site.host.format formatter value name site.locale site.options := hh.format ..
      rw [hv]
      exact .refl _

theorem variableText_same (hh : site.host.IgnoresOnFailure) (bag : Bag) (refuse : Cause → Failure)
    (v : Variable) :
    (v.text site bag refuse).Same (v.text (site.treating onFailure) bag refuse) := by
  have hk : (site.treating onFailure).options.keySeparator = site.options.keySeparator := rfl
  have he : (site.treating onFailure).options.escapes = site.options.escapes := rfl
  simp only [Variable.text, hk, he]
  split
  case isTrue => exact .refl _
  case isFalse =>
    split
    case h_1 | h_2 => exact .refl _
    case h_3 => exact .bind (plainText_same hh ..) fun _ _ => .refl _

theorem fill_same (hh : site.host.IgnoresOnFailure) (bag : Bag) (template : String)
    (part : List Char) :
    (fill site bag template part).Same (fill (site.treating onFailure) bag template part) :=
  .renderM (fun _ => .refl _) (fun _ => variableText_same hh ..) _

theorem interpolate_same (hh : site.host.IgnoresOnFailure) (bag : Bag) (template : String) :
    (interpolate site bag template).Same (interpolate (site.treating onFailure) bag template) :=
  .map (fill_same hh ..)

theorem interpolateAround_same (hh : site.host.IgnoresOnFailure) (bag : Bag) (template : String) :
    (interpolateAround site bag template).Same
      (interpolateAround (site.treating onFailure) bag template) :=
  .map (.renderM (fill_same hh bag template) (fun _ => .refl _) _)

theorem bag_same (hh : site.host.IgnoresOnFailure) (outer : Bag) (refuse : Cause → Failure)
    (n : Nested) :
    (n.bag site outer refuse).Same (n.bag (site.treating onFailure) outer refuse) := by
  simp only [Nested.bag]
  split
  case isTrue => exact .refl _
  case isFalse =>
    let plain : Site ι := { site with options := site.options.unescaped }
    have hp : plain.host.IgnoresOnFailure := hh
    have h : (interpolate plain outer n.inner).Same
        (interpolate (plain.treating onFailure) outer n.inner) := interpolate_same hp ..
    exact h.bind fun _ _ => .refl _

theorem nestedText_same (hh : site.host.IgnoresOnFailure) {resolve resolve' : Resolver ι}
    (hr : ∀ key own, (resolve key site.locale own site.options).Same
      (resolve' key site.locale own (site.options.withOnFailure onFailure)))
    (outer : Bag) (refuse : Cause → Failure) (n : Nested) :
    (n.text site outer resolve refuse).Same
      (n.text (site.treating onFailure) outer resolve' refuse) := by
  simp only [Nested.text]
  split
  case isTrue => exact .refl _
  case isFalse =>
    refine .bind (bag_same hh ..) fun own _ => .bind (.emit rfl) fun _ _ => ?_
    refine .bind (hr n.key own) fun found _ => ?_
    cases found
    case none => exact .refl _
    case some => exact .refl _

theorem nest_same (hh : site.host.IgnoresOnFailure) {resolve resolve' : Resolver ι}
    (hr : ∀ key own, (resolve key site.locale own site.options).Same
      (resolve' key site.locale own (site.options.withOnFailure onFailure)))
    (bag : Bag) (template : String) :
    (nest site bag resolve template).Same
      (nest (site.treating onFailure) bag resolve' template) :=
  .map (.renderM (fun _ => .refl _) (fun _ => nestedText_same hh hr ..) _)

end Templates

section Levels

variable {deeper deeper' : Scope → Resolver ι} {site : Site ι} {onFailure : Setting (OnFailure ι)}

-- Resolvers of nested keys that cannot be told apart.
def Alike (deeper deeper' : Scope → Resolver ι) (o : Options ι)
    (onFailure : Setting (OnFailure ι)) : Prop :=
  ∀ scope raw l bag,
    (deeper scope raw l bag o).Same (deeper' scope raw l bag (o.withOnFailure onFailure))

theorem nested_same (hd : Alike deeper deeper' site.options onFailure) (ns template key : String)
    (l : Locale) (bag : Bag) :
    (nested deeper site ns template key l bag site.options).Same
      (nested deeper' (site.treating onFailure) ns template key l bag
        (site.options.withOnFailure onFailure)) := by
  have hl : (site.treating onFailure).options.depthLimit = site.options.depthLimit := rfl
  have hc : (site.treating onFailure).chain = site.chain := rfl
  simp only [nested, hl, hc]
  split
  case h_1 =>
    split
    case isTrue => exact .refl _
    case isFalse => exact hd ..
  case h_2 => exact hd ..

theorem find_same (hh : site.host.IgnoresOnFailure)
    (hd : Alike deeper deeper' site.options onFailure) (ns key : String) (bag : Bag) :
    (find deeper site ns key bag).Same (find deeper' (site.treating onFailure) ns key bag) := by
  refine .bind (.emit rfl) fun _ _ => ?_
  have hr : (site.treating onFailure).host.retrieve (site.treating onFailure).locale ns key
      (site.treating onFailure).options = site.host.retrieve site.locale ns key site.options :=
    hh.retrieve ..
  rw [hr]
  refine .bind (.refl _) fun found _ => ?_
  cases found
  case none => exact .refl _
  case some template =>
    let inner := site.enter ⟨ns, key, bag.context?⟩
    have hi : inner.host.IgnoresOnFailure := hh
    have hd' : Alike deeper deeper' inner.options onFailure := hd
    refine .bind (.emit rfl) fun _ _ => .bind (interpolateAround_same hi ..) fun _ _ => .map ?_
    exact nest_same hi (fun _ _ => nested_same hd' ..) ..

theorem recover_of_passesOn (hp : site.host.PassesOn site.options) (ns key : String) (bag : Bag)
    (failure : Failure) : (Run.raise failure).Same (recover site ns key bag failure) := by
  unfold recover
  split
  case h_1 => exact .refl _
  case h_2 handler ho =>
    obtain ⟨name, rfl, hf⟩ := hp handler ho
    simp only [Site.emit, Run.emit_bind, hf]
    exact ⟨rfl, rfl⟩

theorem recover_same (hp : site.host.PassesOn site.options)
    (hp' : site.host.PassesOn (site.options.withOnFailure onFailure)) (ns key : String) (bag : Bag)
    (failure : Failure) :
    (recover site ns key bag failure).Same
      (recover (site.treating onFailure) ns key bag failure) := by
  have hp' : (site.treating onFailure).host.PassesOn (site.treating onFailure).options := hp'
  exact (recover_of_passesOn hp ..).symm.trans (recover_of_passesOn hp' ..)

theorem search_same (hh : site.host.IgnoresOnFailure) (hp : site.host.PassesOn site.options)
    (hp' : site.host.PassesOn (site.options.withOnFailure onFailure))
    (hd : Alike deeper deeper' site.options onFailure) (bag : Bag)
    (places : List (String × String)) :
    (search deeper site bag places).Same
      (search deeper' (site.treating onFailure) bag places) := by
  have hc : (site.treating onFailure).chain = site.chain := rfl
  induction places
  case nil => exact .refl _
  case cons place places ih =>
    simp only [search, hc]
    split
    case isTrue => exact .bind (.emit rfl) fun _ _ => .refl _
    case isFalse =>
      refine .bind (find_same hh hd ..).attempt fun r _ => ?_
      cases r
      case error => exact .map (recover_same hp hp' ..)
      case ok found _ =>
        cases found
        case none => exact ih
        case some => exact .refl _

theorem pluralSuffix_same (count : Int) :
    (site.pluralSuffix count).Same ((site.treating onFailure).pluralSuffix count) := by
  refine .bind (.emit rfl) fun _ _ => ?_
  have hr : (site.treating onFailure).host.rules.rule? (site.treating onFailure).locale =
      site.host.rules.rule? site.locale := rfl
  rw [hr]
  split
  case h_1 => exact .bind (.emit rfl) fun _ _ => .refl _
  case h_2 => exact .refl _

theorem candidates_same (key : String) (bag : Bag) :
    (candidates site key bag).Same (candidates (site.treating onFailure) key bag) := by
  simp only [candidates]
  split
  case h_1 => exact .refl _
  case h_2 count _ => exact .bind (.map (pluralSuffix_same count)) fun _ _ => .refl _

theorem resolveIn_same (hh : site.host.IgnoresOnFailure) (hp : site.host.PassesOn site.options)
    (hp' : site.host.PassesOn (site.options.withOnFailure onFailure))
    (hd : Alike deeper deeper' site.options onFailure) (ns key : String) (bag : Bag) :
    (resolveIn deeper site ns key bag).Same
      (resolveIn deeper' (site.treating onFailure) ns key bag) := by
  refine .bind (candidates_same ..) fun keys _ => .bind (search_same hh hp hp' hd ..) fun r _ => ?_
  cases r
  case none => exact .bind (.emit rfl) fun _ _ => .refl _
  case some => exact .refl _

-- Passing a failure on makes no difference at the level where it occurs, nor at those above it.
theorem level_alike {host : Host ι} {o : Options ι} (hh : host.IgnoresOnFailure)
    (hp : host.PassesOn o) (hp' : host.PassesOn (o.withOnFailure onFailure)) (n : Nat) :
    Alike (level host n) (level host n) o onFailure := by
  induction n
  case zero => exact fun _ _ _ _ => .refl _
  case succ n ih =>
    intro scope raw l bag
    let site : Site ι := ⟨host, l, o, scope.chain⟩
    have hi : site.host.IgnoresOnFailure := hh
    exact resolveIn_same hi hp hp' ih ..

end Levels

section Unhandled

variable {host : Host ι} {n : Nat} {site : Site ι} {bag : Bag} {front : List (Event ι)}
  {stops : List (Stop ι)} {s : Stop ι}

theorem handling_eq_raise (h : s.site.options.onFailure.value? = none) :
    s.handling = .raise s.failure := by
  simp only [Stop.handling, recover, h]

theorem Broken.failure_eq (h : Broken host n site bag front stops s)
    (ho : site.options.onFailure.value? = none) : ∀ t ∈ stops, t.failure = s.failure := by
  induction h
  case own => exact List.forall_mem_nil _
  case nested u failure _ _ _ _ _ _ _ _ stops s _ _ _ _ _ hn hp ih =>
    have hs : s.site.options.onFailure.value? = none := hn.site_eq.1 ▸ ho
    have heq : failure = s.failure := hp.eq_of_raised (congrArg Run.outcome (handling_eq_raise hs))
    refine List.forall_mem_append.2 ⟨fun t ht => ?_, List.forall_mem_singleton.2 heq.symm⟩
    exact (ih ho t ht).trans heq.symm

theorem Unwound.unwinding_eq_nil (h : Unwound host n site bag front stops)
    (ho : site.options.onFailure.value? = none) {below above : List (Stop ι)}
    (hs : stops = below ++ above) : unwinding below = [] := by
  refine List.flatMap_eq_nil_iff.2 fun t ht => ?_
  have ht : t ∈ stops := hs ▸ List.mem_append_left _ ht
  rw [handling_eq_raise (h.common t ht ▸ ho)]
  rfl

end Unhandled

end Resolution

def Query.withOnFailure (q : Query ι) (onFailure : Setting (OnFailure ι)) : Query ι :=
  { q with options := some ((q.options.getD {}).withOnFailure onFailure) }

def Request.withOnFailure (r : Request ι) (onFailure : Setting (OnFailure ι)) : Request ι :=
  { r with options := r.options.withOnFailure onFailure }

namespace Localizer

open Resolution

variable {l : Localizer ι} {q : Query ι} {r : Request ι} {handler : OnFailure ι}

theorem effective_withOnFailure : l.effective (q.withOnFailure (.set handler)).options =
    (l.effective q.options).withOnFailure (.set handler) := by
  obtain ⟨_, _, _, _, _, _ | _⟩ := q
  all_goals rfl

theorem request_withOnFailure (hr : l.request q = .ok r) :
    l.request (q.withOnFailure (.set handler)) = .ok (r.withOnFailure (.set handler)) := by
  simp only [request, effective_withOnFailure] at hr ⊢
  simp only [Query.withOnFailure, Request.build] at hr ⊢
  cases hl : (q.locale.getD (.locale l.locale)).read <;> rw [hl] at hr
  case error => cases hr
  case ok =>
    cases hr
    rfl

theorem answer_same {onFailure : Setting (OnFailure ι)} (hh : l.host.IgnoresOnFailure)
    (hp : l.host.PassesOn r.options) (hp' : l.host.PassesOn (r.options.withOnFailure onFailure)) :
    (l.answer r).Same (l.answer (r.withOnFailure onFailure)) := by
  refine .bind (level_alike hh hp hp' (fuel r.options []) {} r.key r.locale r.bag) fun found _ => ?_
  cases found
  case some => exact .refl _
  case none =>
    exact .refl _

theorem text_of_raised {orElse : Option (String → Except Failure (Option String))}
    {failure : Failure} (hr : l.request q = .ok r)
    (h : (l.answer r).outcome = .raised failure) : l.text q orElse = l.answer r := by
  rw [text_of_request hr]
  generalize l.answer r = x at h ⊢
  obtain ⟨events, outcome⟩ := x
  cases h
  rfl

theorem text_same {onFailure : Setting (OnFailure ι)}
    {orElse : Option (String → Except Failure (Option String))} (hr : l.request q = .ok r)
    (hr' : l.request (q.withOnFailure onFailure) = .ok (r.withOnFailure onFailure))
    (ha : (l.answer r).Same (l.answer (r.withOnFailure onFailure)))
    (hm : (l.answer r).outcome = .done none → orElse = none → ∀ handler,
      r.options.onMissing.value? = some handler →
      l.host.missing handler r.locale q.key r.bag (r.options.withOnFailure onFailure) =
        l.host.missing handler r.locale q.key r.bag r.options) :
    (l.text q orElse).Same (l.text (q.withOnFailure onFailure) orElse) := by
  simp only [text, hr, hr', Run.ofExcept, pure_bind]
  refine ha.bind fun found hf => ?_
  cases found
  case some => exact .refl _
  case none =>
    have ho : (r.withOnFailure onFailure).options.onMissing = r.options.onMissing := rfl
    have hk : (q.withOnFailure onFailure).key = q.key := rfl
    simp only [ho, hk]
    cases orElse
    case some producer => exact .refl _
    case none =>
      cases hv : r.options.onMissing.value?
      case none => exact .refl _
      case some handler =>
        have hm : l.host.missing handler r.locale q.key r.bag (r.withOnFailure onFailure).options =
            l.host.missing handler r.locale q.key r.bag r.options := hm hf rfl handler hv
        simp only [Request.withOnFailure] at hm ⊢
        rw [hm]
        exact .bind (.emit rfl) fun _ _ => .refl _

theorem resolution_breaks {failure : Failure} (hh : r.options.onFailure.value? = none)
    (h : (l.resolution r).outcome = .raised failure) :
    ∃ stops, stops ≠ [] ∧ (∀ s ∈ stops, s.failure = failure) ∧
      Unwound l.host (fuel r.options []) ⟨l.host, r.locale, r.options, []⟩ r.bag
        (l.resolution r).events stops := by
  have hs : l.host.Silent r.options := fun _ hn => nomatch hh.symm.trans hn
  have hc := resolution_course hs
  generalize l.resolution r = x at h hc ⊢
  cases hc
  case calm hr => exact absurd h (hr failure)
  case broken front stops s hb =>
    have hu := hb.unwound
    have hf := handling_eq_raise (s := s) (hb.site_eq.1 ▸ hh)
    have heq : s.failure = failure := Outcome.raised.inj ((congrArg Run.outcome hf).symm.trans h)
    refine ⟨stops ++ [s], by simp, ?_, ?_⟩
    case refine_1 =>
      refine List.forall_mem_append.2 ⟨fun t ht => ?_, List.forall_mem_singleton.2 heq⟩
      exact (hb.failure_eq hh t ht).trans heq
    case refine_2 =>
      rw [hu.unwinding_eq_nil hh (List.append_nil _).symm, List.append_nil]
      exact hu

-- If a failure comes out of a call that does not handle failures, it is the one with which the work
-- of the deepest level ended, and so did the rendering of every template above it; nothing was done
-- after it. A handler that fails with what it is given leads to the same outcome, after the same
-- calls.
theorem unhandled_failure_comes_out (l : Localizer ι) (q : Query ι)
    (hh : (l.effective q.options).onFailure.value? = none) {r : Request ι}
    (hr : l.request q = .ok r) :
    let run := l.text? q
    (∀ failure, run.outcome = .raised failure →
      (∀ orElse, l.text q orElse = run) ∧
      ∃ stops, stops ≠ [] ∧ (∀ s ∈ stops, s.failure = failure) ∧
        Unwound l.host (fuel r.options []) ⟨l.host, r.locale, r.options, []⟩ r.bag run.events
          stops ∧
        ∀ below s above, stops = below ++ s :: above →
          let rendering := s.rendering (level l.host (fuel r.options [] - (above.length + 1)))
          rendering.outcome = .raised failure ∧
            ∃ before, run.events = before ++ s.retrieval :: rendering.events) ∧
    (l.host.IgnoresOnFailure → ∀ name,
      (∀ l' ns key bag o failure, l.host.failed name l' ns key bag o failure = .error failure) →
      let onFailure := .set (.handler name)
      run.Same (l.text? (q.withOnFailure onFailure)) ∧
      ∀ orElse,
        (run.outcome = .done none → orElse = none → ∀ handler,
          r.options.onMissing.value? = some handler →
          l.host.missing handler r.locale q.key r.bag (r.options.withOnFailure onFailure) =
            l.host.missing handler r.locale q.key r.bag r.options) →
        (l.text q orElse).Same (l.text (q.withOnFailure onFailure) orElse)) := by
  rw [← options_of_request hr] at hh
  intro run
  have hrun : run = l.answer r := text?_of_request hr
  refine ⟨fun failure h => ?_, fun hi name hn => ?_⟩
  case refine_1 =>
    rw [hrun] at h
    refine ⟨fun orElse => hrun ▸ text_of_raised hr h, ?_⟩
    have ho : (l.resolution r).outcome = .raised failure := by rwa [answer_eq] at h
    have he : run.events = (l.resolution r).events := by simp [hrun, answer_eq, ho]
    have ⟨stops, hne, hf, hu⟩ := resolution_breaks hh ho
    rw [he]
    refine ⟨stops, hne, hf, hu, fun below s above hs => ?_⟩
    have ⟨before, after, hb, _, hd⟩ := hu.broke below s above hs
    rw [hu.unwinding_eq_nil hh hs, List.append_nil] at hd
    simp only [hd]
    exact ⟨congrArg _ (hf s (by simp [hs])), before, hb⟩
  case refine_2 =>
    intro onFailure
    have hp : l.host.PassesOn r.options := fun _ h => nomatch hh.symm.trans h
    have hp' : l.host.PassesOn (r.options.withOnFailure onFailure) := by
      rintro _ ⟨⟩
      exact ⟨name, rfl, fun l' ns key bag failure => hn l' ns key bag _ failure⟩
    have hr' : l.request (q.withOnFailure onFailure) = .ok (r.withOnFailure onFailure) :=
      request_withOnFailure hr
    have ha := answer_same hi hp hp'
    refine ⟨by rwa [hrun, text?_of_request hr'], fun orElse hm => ?_⟩
    exact text_same hr hr' ha fun h => hm (hrun ▸ h)

theorem unbound_name_comes_out :
    let templates : Members String :=
      [("page", "Hi $t(box) $t(page)"), ("box", "\x7b\x7bname\x7d\x7d")]
    let host : Host Unit :=
      { retrieve _ _ key _ := .ok (templates.get? key)
        format _ _ _ _ _ := .ok none
        missing _ _ _ _ _ := .ok none
        failed _ _ _ _ _ _ failure := .error failure
        rules := [] }
    let l : Localizer Unit := ⟨⟨"en", none⟩, host, {}⟩
    let q : Query Unit := ⟨"page", none, none, none, [], some { onFailure := .cleared }⟩
    let failure := Failure.render (.unbound "name") "\x7b\x7bname\x7d\x7d" "\x7b\x7bname\x7d\x7d"
    l.text q = l.text? q ∧ (l.text? q).outcome = .raised failure ∧
      (∃ stops : List (Stop Unit), stops ≠ [] ∧ ∀ s ∈ stops, s.failure = failure) ∧
      (l.text (q.withOnFailure (.set (.handler ())))).outcome = .raised failure := by
  intro templates host l q failure
  have hr : l.request q = .ok ⟨"page", ⟨"en", none⟩, [], l.effective q.options⟩ := rfl
  have ho : (l.text? q).outcome = .raised failure := by decide +kernel
  have ⟨hraised, hsame⟩ := unhandled_failure_comes_out l q rfl hr
  have ⟨htext, stops, hne, hf, _⟩ := hraised failure ho
  have hi : l.host.IgnoresOnFailure := ⟨fun _ _ _ _ _ => rfl, fun _ _ _ _ _ _ => rfl⟩
  have ⟨_, hs⟩ := hsame hi () fun _ _ _ _ _ _ => rfl
  refine ⟨htext none, ho, ⟨stops, hne, hf⟩, ?_⟩
  rw [(hs none fun h => nomatch ho.symm.trans h).outcome_eq, htext none, ho]

end Localizer
end Phrasebook
